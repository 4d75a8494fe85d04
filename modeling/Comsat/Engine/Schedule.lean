import Comsat.Engine.Merge
import Comsat.Lib.RoundRobin
import Mathlib

set_option relaxedAutoImplicit false
set_option autoImplicit false

/-!
# The merged stream does not depend on timing

Which events the driver emits, and in which order, is fixed by what the sources send: it is the
order of a round-robin rotation over what they have left. When the events become available only
decides how far the stream has got.

## Main definitions

* `emissions` — what a sequence of handled events makes the driver emit.
* `SearchDriver.rotation`, `SearchDriver.remaining` — the rotation a driver stands for, and all
  events it is still going to handle, in order.
* `SearchDriver.Advances` — a driver took the next of its remaining events and emitted for them.
* `SourceScript`, `canonicalOrder`, `canonical` — what one source sends, and the events all
  selected sources send in the order of the rotation.
* `SearchDriver.Reaches` — one driver is reached from another by the assignments of its methods.

## Main results

* `SearchDriver.pollNext_advances` — one poll advances the driver.
* `SearchDriver.search_schedule_independent` — whatever the timing, the emitted events are a prefix
  of the canonical ones; a stream that ends has consumed every source; never are more sources
  running than may be.
-/

namespace Comsat

/-! ## What handled events emit -/

/-- What the driver emits for a sequence of events when no failure ends it. -/
def emissions : DedupeSet → List WorkerEvent → List EngineEvent
  | _, [] => []
  | dedupe, .record _ record :: events =>
    (if (dedupe.insert record).1 then [.record record] else []) ++
      emissions (dedupe.insert record).2 events
  | dedupe, .failed diagnostic :: events => .sourceFailed diagnostic :: emissions dedupe events

/-- The keys seen after a sequence of events. -/
def seenAfter : DedupeSet → List WorkerEvent → DedupeSet
  | dedupe, [] => dedupe
  | dedupe, .record _ record :: events => seenAfter (dedupe.insert record).2 events
  | dedupe, .failed _ :: events => seenAfter dedupe events

/-- What a sequence emits is what its parts emit. -/
lemma emissions_append (dedupe : DedupeSet) (before after : List WorkerEvent) :
    emissions dedupe (before ++ after) =
      emissions dedupe before ++ emissions (seenAfter dedupe before) after := by
  induction before generalizing dedupe with
  | nil => rfl
  | cons event before ih => cases event <;> simp [emissions, seenAfter, ih]

/-- The keys seen after an event and more. -/
lemma seenAfter_cons (dedupe : DedupeSet) (event : WorkerEvent) (events : List WorkerEvent) :
    seenAfter dedupe (event :: events) = seenAfter (seenAfter dedupe [event]) events := by
  cases event <;> rfl

/-- An event emits at most one. -/
lemma emissions_singleton (dedupe : DedupeSet) (event : WorkerEvent) :
    emissions dedupe [event] = [] ∨ ∃ emitted, emissions dedupe [event] = [emitted] := by
  cases event with
  | record source record => by_cases h : (dedupe.insert record).1 <;> simp [emissions, h]
  | failed diagnostic => simp [emissions]

/-- What is emitted first was emitted for the first events. -/
lemma exists_split_of_emissions {dedupe : DedupeSet} {events : List WorkerEvent}
    {first later : List EngineEvent} (h : emissions dedupe events = first ++ later) :
    ∃ before after, events = before ++ after ∧ emissions dedupe before = first ∧
      emissions (seenAfter dedupe before) after = later := by
  induction events generalizing dedupe first with
  | nil =>
    obtain ⟨rfl, rfl⟩ := List.append_eq_nil_iff.mp h.symm
    exact ⟨[], [], rfl, rfl, rfl⟩
  | cons event events ih =>
    cases first with
    | nil => exact ⟨[], event :: events, rfl, rfl, h⟩
    | cons emitted first =>
      have hstep : emissions dedupe (event :: events) =
          emissions dedupe [event] ++ emissions (seenAfter dedupe [event]) events :=
        emissions_append dedupe [event] events
      obtain hnone | ⟨only, hsome⟩ := emissions_singleton dedupe event
      · rw [hstep, hnone, List.nil_append] at h
        obtain ⟨before, after, rfl, hbefore, hafter⟩ := ih h
        refine ⟨event :: before, after, rfl, ?_, seenAfter_cons dedupe event before ▸ hafter⟩
        rw [← hbefore, ← List.singleton_append, emissions_append, hnone, List.nil_append]
      · rw [hstep, hsome, List.singleton_append, List.cons_append, List.cons.injEq] at h
        obtain ⟨rfl, h⟩ := h
        obtain ⟨before, after, rfl, hbefore, hafter⟩ := ih h
        refine ⟨event :: before, after, rfl, ?_, seenAfter_cons dedupe event before ▸ hafter⟩
        rw [← hbefore, ← List.singleton_append, emissions_append, hsome, List.singleton_append]

/-- A record is emitted only for an event that carries it. -/
lemma exists_of_record_mem_emissions {dedupe : DedupeSet} {events : List WorkerEvent}
    {record : Record} (h : .record record ∈ emissions dedupe events) :
    ∃ source, .record source record ∈ events := by
  induction events generalizing dedupe with
  | nil => simp [emissions] at h
  | cons event events ih =>
    cases event with
    | record source other =>
      rw [emissions, List.mem_append] at h
      obtain h | h := h
      · split at h
        · obtain rfl : record = other := by simpa using h
          exact ⟨source, List.mem_cons_self ..⟩
        · simp at h
      · obtain ⟨source, hmem⟩ := ih h
        exact ⟨source, List.mem_cons_of_mem _ hmem⟩
    | failed diagnostic =>
      obtain ⟨source, hmem⟩ := ih (by simpa [emissions] using h)
      exact ⟨source, List.mem_cons_of_mem _ hmem⟩

/-- The failure an event reports. -/
def WorkerEvent.failure? : WorkerEvent → Option EngineDiagnostic
  | .record _ _ => none
  | .failed diagnostic => some diagnostic

/-- The failure an emitted event reports. -/
def EngineEvent.failure? : EngineEvent → Option EngineDiagnostic
  | .record _ => none
  | .sourceFailed diagnostic => some diagnostic

/-- Every failure is emitted, in order. -/
lemma filterMap_failure_emissions (dedupe : DedupeSet) (events : List WorkerEvent) :
    (emissions dedupe events).filterMap EngineEvent.failure? =
      events.filterMap WorkerEvent.failure? := by
  induction events generalizing dedupe with
  | nil => rfl
  | cons event events ih =>
    cases event with
    | record source record =>
      by_cases hfresh : (dedupe.insert record).1 <;>
        simp [emissions, hfresh, List.filterMap_cons, EngineEvent.failure?, WorkerEvent.failure?,
          ih]
    | failed diagnostic => simp [emissions, EngineEvent.failure?, WorkerEvent.failure?, ih]

/-- A failure is emitted exactly when it is handled. -/
lemma sourceFailed_mem_emissions {dedupe : DedupeSet} {events : List WorkerEvent}
    {diagnostic : EngineDiagnostic} :
    .sourceFailed diagnostic ∈ emissions dedupe events ↔ .failed diagnostic ∈ events := by
  have hemitted : ∀ emitted : List EngineEvent,
      .sourceFailed diagnostic ∈ emitted ↔ diagnostic ∈ emitted.filterMap EngineEvent.failure? := by
    intro emitted
    rw [List.mem_filterMap]
    constructor
    · exact fun h => ⟨_, h, rfl⟩
    · rintro ⟨_ | other, h, heq⟩
      · simp [EngineEvent.failure?] at heq
      · obtain rfl : other = diagnostic := by simpa [EngineEvent.failure?] using heq
        exact h
  have hhandled : .failed diagnostic ∈ events ↔
      diagnostic ∈ events.filterMap WorkerEvent.failure? := by
    rw [List.mem_filterMap]
    constructor
    · exact fun h => ⟨_, h, rfl⟩
    · rintro ⟨_ | other, h, heq⟩
      · simp [WorkerEvent.failure?] at heq
      · obtain rfl : other = diagnostic := by simpa [WorkerEvent.failure?] using heq
        exact h
  rw [hemitted, hhandled, filterMap_failure_emissions]

/-- A key seen after a sequence was seen before it or is a key of an emitted record. -/
lemma mem_seenAfter {dedupe : DedupeSet} {events : List WorkerEvent} {key : String}
    (h : key ∈ (seenAfter dedupe events).seen) :
    key ∈ dedupe.seen ∨
      ∃ record, .record record ∈ emissions dedupe events ∧ key ∈ dedupeKeys record := by
  induction events generalizing dedupe with
  | nil => exact .inl h
  | cons event events ih =>
    cases event with
    | record source record =>
      obtain hseen | ⟨earlier, hmem, hkey⟩ := ih h
      · obtain hseen | ⟨hfresh, hkey⟩ := (DedupeSet.insert_snd _ _ _).mp hseen
        · exact .inl hseen
        · exact .inr ⟨record, by simp [emissions, hfresh], hkey⟩
      · exact .inr ⟨earlier, by simp [emissions, hmem], hkey⟩
    | failed diagnostic =>
      obtain hseen | ⟨earlier, hmem, hkey⟩ := ih h
      · exact .inl hseen
      · exact .inr ⟨earlier, by simp [emissions, hmem], hkey⟩

/-- A record is emitted at its turn unless it shares a key with a record emitted before it. -/
lemma emitted_or_duplicate (before after : List WorkerEvent) (source : SourceId)
    (record : Record) :
    (∃ later, emissions .empty (before ++ .record source record :: after) =
      emissions .empty before ++ .record record :: later) ∨
    ∃ earlier, .record earlier ∈ emissions .empty before ∧ SharesKey earlier record := by
  by_cases hfresh : ((seenAfter .empty before).insert record).1 = true
  · exact .inl ⟨_, by rw [emissions_append]; simp [emissions, hfresh]; rfl⟩
  · right
    rw [DedupeSet.insert_fst] at hfresh
    push Not at hfresh
    obtain ⟨key, hkey, hseen⟩ := hfresh
    obtain hnone | ⟨earlier, hmem, hearlier⟩ := mem_seenAfter hseen
    · simp [DedupeSet.empty] at hnone
    · exact ⟨earlier, hmem, key, hearlier, hkey⟩

/-- The event of a poll, if it has one. -/
def SourcePoll.event? : SourcePoll → Option EngineEvent
  | event emitted => some emitted
  | advanced => none
  | pending => none

namespace SearchDriver

/-! ## The rotation behind a driver -/

section

variable (script : PlannedSource → List WorkerEvent)

/-- The rotation of what the sources have left. -/
def rotation (d : SearchDriver) : RoundRobin WorkerEvent where
  slots := d.running.map RunningSource.left
  cursor := d.cursor
  waiting := d.pending.map script

/-- All events that are still to be handled, in order. -/
def remaining (d : SearchDriver) : List WorkerEvent :=
  d.initial ++ ((d.rotation script).fill d.maxActive).order d.maxActive

/-- A driver that does not stop at failures and has started as many sources as it may, if any. -/
structure Regular (d : SearchDriver) : Prop where
  lenient : d.strict = false
  going : d.stopping = false
  active : 0 < d.maxActive
  full : (d.rotation script).Full d.maxActive ∨ d.running = []

/-- The driver `d` took the first of its remaining events, emitted `out` for them and became `d'`. -/
structure Advances (d : SearchDriver) (out : List EngineEvent) (d' : SearchDriver) : Prop where
  regular : d'.Regular script
  taken : ∃ taken, d.remaining script = taken ++ d'.remaining script ∧
    d'.handled = d.handled ++ taken ∧
    ∀ later, emissions d.dedupe (taken ++ later) = out ++ emissions d'.dedupe later

variable {script}

/-- A driver that stays as it is advances by nothing. -/
lemma Advances.refl {d : SearchDriver} (h : d.Regular script) : Advances script d [] d :=
  ⟨h, [], by simp⟩

/-- Advances follow one another. -/
lemma Advances.trans {d d' d'' : SearchDriver} {out out' : List EngineEvent}
    (h : Advances script d out d') (h' : Advances script d' out' d'') :
    Advances script d (out ++ out') d'' := by
  obtain ⟨taken, hrest, hhandled, hout⟩ := h.taken
  obtain ⟨taken', hrest', hhandled', hout'⟩ := h'.taken
  refine ⟨h'.regular, taken ++ taken', ?_, ?_, fun later => ?_⟩
  · rw [hrest, hrest', List.append_assoc]
  · rw [hhandled', hhandled, List.append_assoc]
  · rw [List.append_assoc, hout, hout', List.append_assoc]

/-- What changes neither the remaining events nor what was seen advances by nothing. -/
lemma Advances.of_eq {d d' : SearchDriver} (h : d'.Regular script)
    (hrest : d'.remaining script = d.remaining script) (hhandled : d'.handled = d.handled)
    (hdedupe : d'.dedupe = d.dedupe) : Advances script d [] d' :=
  ⟨h, [], by simp [hrest], by simp [hhandled], fun later => by simp [hdedupe]⟩

/-- Taking an event of a lenient driver adds it to the handled ones and its keys to those seen. -/
lemma mapEvent_lenient {d : SearchDriver} (h : d.strict = false) (event : WorkerEvent) :
    (d.mapEvent event).2 =
      { d with handled := d.handled ++ [event], dedupe := seenAfter d.dedupe [event] } := by
  cases event <;> simp [mapEvent, seenAfter, h]

/-- An event is emitted as `emissions` says. -/
lemma mapEvent_fst (d : SearchDriver) (event : WorkerEvent) :
    (d.mapEvent event).1.toList = emissions d.dedupe [event] := by
  cases event with
  | record source record =>
    simp only [mapEvent, emissions, List.append_nil]
    split <;> rfl
  | failed diagnostic => rfl

/-- A driver that takes the first of its remaining events advances by it. -/
lemma advances_of_mapEvent {d d₁ : SearchDriver} {event : WorkerEvent}
    (hregular : d₁.Regular script)
    (hrest : d.remaining script = event :: d₁.remaining script)
    (hhandled : d₁.handled = d.handled) (hdedupe : d₁.dedupe = d.dedupe) :
    Advances script d (d₁.mapEvent event).1.toList (d₁.mapEvent event).2 := by
  rw [mapEvent_lenient hregular.lenient, mapEvent_fst, hdedupe]
  refine ⟨⟨hregular.lenient, hregular.going, hregular.active, hregular.full⟩, [event], hrest, ?_,
    fun later => ?_⟩
  · simp [hhandled]
  · exact emissions_append d.dedupe [event] later

/-! ## The driver's methods -/

/-- The driver after the failures that were known beforehand. -/
lemma nextInitialEvent_go {d : SearchDriver} {initial : List WorkerEvent} :
    ({ d with initial := initial }.Regular script) →
    Advances script { d with initial := initial } (nextInitialEvent.go initial d).1.toList
        (nextInitialEvent.go initial d).2 ∧
      ((nextInitialEvent.go initial d).1 = none → (nextInitialEvent.go initial d).2.initial = []) := by
  induction initial generalizing d with
  | nil => exact fun h => ⟨.refl h, fun _ => rfl⟩
  | cons event initial ih =>
    intro h
    have hstep : Advances script { d with initial := event :: initial }
        ({ d with initial := initial }.mapEvent event).1.toList
        ({ d with initial := initial }.mapEvent event).2 :=
      advances_of_mapEvent ⟨h.lenient, h.going, h.active, h.full⟩ rfl rfl rfl
    rw [nextInitialEvent.go]
    split
    · rename_i emitted d' hmap
      rw [hmap] at hstep
      exact ⟨hstep, by simp⟩
    · rename_i d' hmap
      rw [hmap] at hstep
      have hinitial : d'.initial = initial := by
        have hsnd := congrArg Prod.snd hmap
        rw [mapEvent_lenient (d := { d with initial := initial }) h.lenient] at hsnd
        exact congrArg SearchDriver.initial hsnd.symm
      have hd' : { d' with initial := initial } = d' := by rw [← hinitial]
      have hrest := ih (d := d') (hd'.symm ▸ hstep.regular)
      rw [hd'] at hrest
      exact ⟨hstep.trans hrest.1, hrest.2⟩

/-- Emitting a failure known beforehand advances the driver; otherwise none is left. -/
lemma nextInitialEvent_advances {d : SearchDriver} (h : d.Regular script) :
    Advances script d d.nextInitialEvent.1.toList d.nextInitialEvent.2 ∧
      (d.nextInitialEvent.1 = none → d.nextInitialEvent.2.initial = []) :=
  nextInitialEvent_go h

/-- Starting a source does nothing when the rotation is full; otherwise the first pending source
runs. -/
lemma startReadySource_cases (script : PlannedSource → List WorkerEvent) (d : SearchDriver) (hgoing : d.stopping = false) :
    ((d.rotation script).Full d.maxActive ∧ startReadySource script d = d) ∨
    ∃ source pending, d.pending = source :: pending ∧ d.running.length < d.maxActive ∧
      startReadySource script d =
        { d with pending := pending, running := d.running ++ [⟨[], some (script source)⟩] } := by
  by_cases hfree : d.running.length < d.maxActive
  · cases hpending : d.pending with
    | nil => exact .inl ⟨.inr (by simp [rotation, hpending]), by simp [startReadySource, hpending]⟩
    | cons source pending =>
      exact .inr ⟨source, pending, rfl, hfree, by simp [startReadySource, hgoing, hfree, hpending]⟩
  · exact .inl ⟨.inl (by simpa [rotation] using hfree), by simp [startReadySource, hfree]⟩

/-- Starting sources again and again fills the rotation and changes nothing else. -/
lemma startReadySource_iterate (script : PlannedSource → List WorkerEvent) (turns : ℕ) (d : SearchDriver) (hgoing : d.stopping = false) :
    ∃ pending running,
      (startReadySource script)^[turns] d = { d with pending := pending, running := running } ∧
      (({ d with pending := pending, running := running } : SearchDriver).rotation script).fill
        d.maxActive = (d.rotation script).fill d.maxActive ∧
      (d.pending.length ≤ turns →
        (({ d with pending := pending, running := running } : SearchDriver).rotation script).Full
          d.maxActive) := by
  induction turns generalizing d with
  | zero =>
    refine ⟨d.pending, d.running, rfl, rfl, fun h => .inr ?_⟩
    simp [rotation, List.length_eq_zero_iff.mp (Nat.le_zero.mp h)]
  | succ turns ih =>
    rw [Function.iterate_succ_apply]
    obtain ⟨hfull, hsame⟩ | ⟨source, rest, hpending, hfree, hstart⟩ :=
      startReadySource_cases script d hgoing
    · rw [hsame, Function.iterate_fixed hsame]
      exact ⟨d.pending, d.running, rfl, rfl, fun _ => hfull⟩
    · rw [hstart]
      obtain ⟨pending, running, heq, hfill, hfull⟩ := ih { d with
        pending := rest, running := d.running ++ [⟨[], some (script source)⟩] } hgoing
      refine ⟨pending, running, heq, hfill.trans ?_, fun h => hfull (by simpa [hpending] using h)⟩
      have hcons := RoundRobin.fill_cons (r := d.rotation script) (n := d.maxActive)
        (by simp [rotation, hpending]; exact ⟨rfl, rfl⟩) (by simpa [rotation] using hfree)
      rw [← hcons]
      simp [rotation, RunningSource.left]

/-- Starting sources fills the rotation and changes nothing about what is to be handled. -/
lemma startReadySources_advances (script : PlannedSource → List WorkerEvent)
    {d : SearchDriver} (hlenient : d.strict = false)
    (hgoing : d.stopping = false) (hactive : 0 < d.maxActive) :
    (d.startReadySources script).Regular script ∧
      ((d.startReadySources script).rotation script).Full
        (d.startReadySources script).maxActive ∧
      (d.startReadySources script).remaining script = d.remaining script ∧
      (d.startReadySources script).initial = d.initial ∧
      (d.startReadySources script).handled = d.handled ∧
      (d.startReadySources script).dedupe = d.dedupe := by
  obtain ⟨pending, running, heq, hfill, hfull⟩ :=
    startReadySource_iterate script d.pending.length d hgoing
  rw [startReadySources, heq]
  refine ⟨⟨hlenient, hgoing, hactive, .inl (hfull le_rfl)⟩, hfull le_rfl, ?_, rfl, rfl, rfl⟩
  simp only [remaining, hfill]

/-! ## The loop over sources ends -/

/-- A list is what stands before, at and after a position. -/
lemma split_at {α : Type*} {l : List α} {i : ℕ} {a : α} (h : l[i]? = some a) :
    l.take i ++ a :: l.drop (i + 1) = l := by
  obtain ⟨hlt, rfl⟩ := List.getElem?_eq_some_iff.mp h
  rw [List.getElem_cons_drop, List.take_append_drop]

/-- Starting sources moves them from the pending to the running ones. -/
lemma work_startReadySources (d : SearchDriver) : (d.startReadySources script).work = d.work := by
  have hone : ∀ d, (startReadySource script d).work = d.work := by
    intro d
    simp only [startReadySource]
    split
    · split
      · rfl
      · rename_i hpending
        simp [work, hpending]
        omega
    · rfl
  rw [startReadySources]
  generalize d.pending.length = turns
  induction turns generalizing d with
  | zero => rfl
  | succ turns ih => rw [Function.iterate_succ_apply, ih, hone]

/-- Putting the cursor on the slot it stands for leaves the same work. -/
lemma work_normalizeCursor (d : SearchDriver) : d.normalizeCursor.work = d.work := by
  rw [normalizeCursor]
  split <;> rfl

/-- Passing the turn on leaves the same work. -/
lemma work_advanceCursor (d : SearchDriver) : d.advanceCursor.work = d.work := by
  rw [advanceCursor]
  split <;> rfl

/-- A dropped record leaves the same sources. -/
lemma work_of_mapEvent_none {d d' : SearchDriver} {event : WorkerEvent}
    (h : d.mapEvent event = (none, d')) : d'.work = d.work := by
  cases event with
  | record source record =>
    obtain rfl : _ = d' := congrArg Prod.snd h
    rfl
  | failed diagnostic => simp [mapEvent] at h

/-- Passing on from a source brings the end of the loop nearer. -/
lemma work_of_advanced {d d' : SearchDriver} (h : d.pollCurrentSource script = (.advanced, d')) :
    d'.work < d.work := by
  rw [← work_normalizeCursor d]
  rw [pollCurrentSource] at h
  generalize d.normalizeCursor = d₁ at h ⊢
  split at h
  · cases h
  · rename_i source hsource
    have hlt := (List.getElem?_eq_some_iff.mp hsource).1
    split at h
    · rename_i event rx hrx
      have hsum : (d₁.running.map fun source => source.rx.length).sum =
          ((d₁.running.set d₁.cursor { source with rx := rx }).map
            fun source => source.rx.length).sum + 1 := by
        rw [List.set_eq_take_append_cons_drop, if_pos hlt]
        nth_rewrite 1 [← split_at hsource]
        simp [hrx]
        omega
      rw [consumeSourceEvent] at h
      split at h
      rename_i emitted d₂ hmap
      cases emitted with
      | some emitted => simp at h
      | none =>
        simp only [Prod.mk.injEq, true_and] at h
        rw [← h, work_advanceCursor, work_of_mapEvent_none hmap]
        simp only [work, hsum, List.length_set]
        omega
    · rename_i hrx
      split at h
      · simp only [Prod.mk.injEq, true_and] at h
        have hsum : (d₁.running.map fun source => source.rx.length).sum =
            ((d₁.running.eraseIdx d₁.cursor).map fun source => source.rx.length).sum := by
          rw [List.eraseIdx_eq_take_drop_succ]
          nth_rewrite 1 [← split_at hsource]
          simp [hrx]
        rw [← h, removeCurrentSource, work_startReadySources, work_normalizeCursor]
        simp only [work, hsum, List.length_eraseIdx_of_lt hlt]
        omega
      · simp at h

/-- Bounds that the work does not reach make no difference to the loop. -/
lemma pollOrderedSourceEvent_go {turns turns' : ℕ} {d : SearchDriver} (h : d.work < turns)
    (h' : d.work < turns') :
    pollOrderedSourceEvent.go script turns d = pollOrderedSourceEvent.go script turns' d := by
  induction turns generalizing turns' d with
  | zero => omega
  | succ turns ih =>
    obtain _ | turns' := turns'
    · omega
    rw [pollOrderedSourceEvent.go, pollOrderedSourceEvent.go]
    split
    · rfl
    · split
      · rfl
      · rename_i d' hpoll
        have hless := work_of_advanced hpoll
        exact ih (by omega) (by omega)
      · rfl

/-- **The loop over sources.** It polls the source whose turn it is, and goes on after a source
that gave nothing to emit: the bound on its turns never cuts it short. -/
theorem pollOrderedSourceEvent_eq (d : SearchDriver) :
    d.pollOrderedSourceEvent script =
      if d.running.isEmpty then (none, d)
      else
        match d.pollCurrentSource script with
        | (.event event, d) => (some event, d)
        | (.advanced, d) => d.pollOrderedSourceEvent script
        | (.pending, d) => (none, d) := by
  rw [pollOrderedSourceEvent, pollOrderedSourceEvent.go]
  split
  · rfl
  · cases hpoll : d.pollCurrentSource script with
    | mk poll d' =>
      cases poll with
      | event event => rfl
      | advanced => exact pollOrderedSourceEvent_go (work_of_advanced hpoll) (Nat.lt_succ_self _)
      | pending => rfl

/-! ## Polling sources -/

/-- The turn is that of the rotation. -/
lemma normalizeCursor_eq (script : PlannedSource → List WorkerEvent) (d : SearchDriver) :
    d.normalizeCursor = { d with cursor := (d.rotation script).index } := by
  simp only [normalizeCursor, RoundRobin.index, rotation, List.length_map]
  by_cases h : d.cursor < d.running.length
  · rw [if_neg (by omega), if_pos h]
  · rw [if_pos (by omega), if_neg h]

/-- What is left of a driver whose rotation is full. -/
lemma remaining_of_full {d : SearchDriver} (hinitial : d.initial = [])
    (hfull : (d.rotation script).Full d.maxActive) :
    d.remaining script = (d.rotation script).order d.maxActive := by
  rw [remaining, hinitial, RoundRobin.fill_of_full hfull, List.nil_append]

/-- Putting the cursor on the slot it stands for advances by nothing. -/
lemma normalizeCursor_advances {d : SearchDriver} (h : d.Regular script) (hinitial : d.initial = [])
    (hfull : (d.rotation script).Full d.maxActive) : Advances script d [] d.normalizeCursor := by
  rw [normalizeCursor_eq script]
  refine .of_eq ⟨h.lenient, h.going, h.active, .inl hfull⟩ ?_ rfl rfl
  rw [remaining_of_full hinitial hfull, remaining_of_full (by exact hinitial) (by exact hfull)]
  exact RoundRobin.order_normalize d.maxActive (d.rotation script)

/-- Taking an event passes the turn on. -/
lemma consumeSourceEvent_snd {d : SearchDriver} (h : d.strict = false) (hrunning : d.running ≠ [])
    (event : WorkerEvent) :
    (d.consumeSourceEvent event).2 =
      ({ d with cursor := (d.cursor + 1) % d.running.length }.mapEvent event).2 := by
  have hempty : d.running.isEmpty = false := by simpa using hrunning
  change (d.mapEvent event).2.advanceCursor = _
  rw [mapEvent_lenient h, mapEvent_lenient (by exact h)]
  simp [advanceCursor, hempty]

/-- Taking an event emits what handling it emits. -/
lemma consumeSourceEvent_fst (d : SearchDriver) (event : WorkerEvent) :
    (d.consumeSourceEvent event).1.event?.toList = emissions d.dedupe [event] := by
  rw [← mapEvent_fst, consumeSourceEvent]
  obtain ⟨_ | emitted, d'⟩ := d.mapEvent event <;> rfl

/-- Taking an event of the source whose turn it is advances the driver. -/
lemma consumeSourceEvent_advances {d : SearchDriver} {source : RunningSource} {event : WorkerEvent}
    {rx : List WorkerEvent} (h : d.Regular script) (hinitial : d.initial = [])
    (hfull : (d.rotation script).Full d.maxActive) (hcursor : (d.rotation script).index = d.cursor)
    (hsource : d.running[d.cursor]? = some source) (hrx : source.rx = event :: rx) :
    let polled := { d with
      running := d.running.set d.cursor { source with rx := rx } }.consumeSourceEvent event
    Advances script d polled.1.event?.toList polled.2 ∧ polled.2.initial = [] := by
  have hlt := (List.getElem?_eq_some_iff.mp hsource).1
  set running := d.running.set d.cursor { source with rx := rx } with hset
  have hrunning : running ≠ [] := by
    rw [← List.length_pos_iff, hset, List.length_set]
    omega
  -- the driver after the event was received, with the turn passed on
  set d₁ := { d with running := running, cursor := (d.cursor + 1) % running.length } with hd₁
  have hturn : (d.rotation script).turn d.maxActive =
      some (some event, d₁.rotation script) := by
    have hslot : (d.rotation script).slots[(d.rotation script).index]? =
        some (event :: (rx ++ source.future.getD [])) := by
      rw [hcursor]
      simp [rotation, hsource, RunningSource.left, hrx]
    rw [RoundRobin.turn, hslot]
    simp only [RoundRobin.advance, hcursor, Option.some.injEq, Prod.mk.injEq, true_and]
    simp [rotation, hd₁, hset, RunningSource.left, List.map_set]
  have hfull₁ : (d₁.rotation script).Full d₁.maxActive := RoundRobin.full_of_turn hfull hturn
  have hrest : d.remaining script = event :: d₁.remaining script := by
    rw [remaining_of_full hinitial hfull, RoundRobin.order_of_turn_some hturn,
      remaining_of_full (d := d₁) hinitial hfull₁]
  have hregular : d₁.Regular script := ⟨h.lenient, h.going, h.active, .inl hfull₁⟩
  have hstep := advances_of_mapEvent hregular hrest rfl rfl
  rw [mapEvent_fst] at hstep
  dsimp only
  rw [consumeSourceEvent_snd (by exact h.lenient) hrunning, consumeSourceEvent_fst]
  refine ⟨hstep, ?_⟩
  rw [mapEvent_lenient (by exact h.lenient)]
  exact hinitial

/-- Removing a source that has nothing left advances the driver by nothing. -/
lemma removeCurrentSource_advances {d : SearchDriver} {source : RunningSource}
    (h : d.Regular script) (hinitial : d.initial = [])
    (hfull : (d.rotation script).Full d.maxActive) (hcursor : (d.rotation script).index = d.cursor)
    (hsource : d.running[d.cursor]? = some source) (hleft : source.left = []) :
    Advances script d [] (d.removeCurrentSource script) ∧
      (d.removeCurrentSource script).initial = [] := by
  -- the driver without the source, before the next one is started
  set d₁ := { d with running := d.running.eraseIdx d.cursor }.normalizeCursor with hd₁
  have hrunning : d₁.running = d.running.eraseIdx d.cursor := by
    rw [hd₁, normalizeCursor]
    split <;> rfl
  have hrotation : d₁.rotation script = (d.rotation script).drop := by
    rw [hd₁, normalizeCursor_eq script, RoundRobin.drop, hcursor]
    simp [rotation, RoundRobin.index, List.eraseIdx_map]
  have hturn : (d.rotation script).turn d.maxActive =
      some (none, (d₁.rotation script).fill d.maxActive) := by
    have hslot : (d.rotation script).slots[(d.rotation script).index]? = some [] := by
      rw [hcursor]
      simp [rotation, hsource, hleft]
    rw [RoundRobin.turn, hslot, hrotation]
  have hrest : d₁.remaining script = d.remaining script := by
    rw [remaining_of_full hinitial hfull, RoundRobin.order_of_turn_none hturn, remaining, hd₁,
      normalizeCursor_eq script]
    simp [hinitial]
  have hsame : d₁ = { d with running := d.running.eraseIdx d.cursor, cursor := d₁.cursor } := by
    rw [hd₁, normalizeCursor_eq script]
  obtain ⟨hregular, -, hremaining, hinitial₁, hhandled, hdedupe⟩ :=
    startReadySources_advances script (d := d₁) (by rw [hsame]; exact h.lenient)
      (by rw [hsame]; exact h.going) (by rw [hsame]; exact h.active)
  refine ⟨.of_eq hregular (hremaining.trans hrest) (hhandled.trans ?_) (hdedupe.trans ?_),
    hinitial₁.trans ?_⟩
  · rw [hsame]
  · rw [hsame]
  · rw [hsame, hinitial]

/-- Polling the source whose turn it is advances the driver by what is emitted. -/
lemma pollCurrentSource_advances {d : SearchDriver} (h : d.Regular script)
    (hinitial : d.initial = []) (hfull : (d.rotation script).Full d.maxActive) :
    Advances script d (d.pollCurrentSource script).1.event?.toList (d.pollCurrentSource script).2 ∧
      (d.pollCurrentSource script).2.initial = [] := by
  have hnorm := normalizeCursor_advances h hinitial hfull
  have hcursor : (d.normalizeCursor.rotation script).index = d.normalizeCursor.cursor := by
    rw [normalizeCursor_eq script]
    exact RoundRobin.index_normalize (d.rotation script)
  have hsame : d.normalizeCursor = { d with cursor := d.normalizeCursor.cursor } := by
    rw [normalizeCursor_eq script]
  rw [pollCurrentSource]
  generalize d.normalizeCursor = d₁ at hnorm hcursor hsame ⊢
  have hinitial₁ : d₁.initial = [] := by rw [hsame, hinitial]
  have hfull₁ : (d₁.rotation script).Full d₁.maxActive := by rw [hsame]; exact hfull
  split
  · exact ⟨hnorm, hinitial₁⟩
  · rename_i source hsource
    split
    · rename_i event rx hrx
      obtain ⟨hstep, hinitial₂⟩ :=
        consumeSourceEvent_advances hnorm.regular hinitial₁ hfull₁ hcursor hsource hrx
      exact ⟨hnorm.trans hstep, hinitial₂⟩
    · rename_i hrx
      split
      · rename_i hclosed
        have hleft : source.left = [] := by
          simp [RunningSource.left, hrx, Option.isNone_iff_eq_none.mp hclosed]
        obtain ⟨hstep, hinitial₂⟩ :=
          removeCurrentSource_advances hnorm.regular hinitial₁ hfull₁ hcursor hsource hleft
        exact ⟨hnorm.trans hstep, hinitial₂⟩
      · exact ⟨hnorm, hinitial₁⟩

/-- A driver with running sources has a full rotation. -/
lemma Regular.full_of_running {d : SearchDriver} (h : d.Regular script)
    (hrunning : d.running.isEmpty = false) : (d.rotation script).Full d.maxActive :=
  h.full.resolve_right fun hnil => by simp [hnil] at hrunning

/-- Polling sources in turn advances the driver by what is emitted. -/
lemma pollOrderedSourceEvent_advances {d : SearchDriver} (h : d.Regular script)
    (hinitial : d.initial = []) :
    Advances script d (d.pollOrderedSourceEvent script).1.toList
        (d.pollOrderedSourceEvent script).2 ∧
      (d.pollOrderedSourceEvent script).2.initial = [] := by
  rw [pollOrderedSourceEvent]
  generalize d.work + 1 = turns
  induction turns generalizing d with
  | zero => exact ⟨.refl h, hinitial⟩
  | succ turns ih =>
    rw [pollOrderedSourceEvent.go]
    split
    · exact ⟨.refl h, hinitial⟩
    · rename_i hrunning
      obtain ⟨hstep, hinitial'⟩ :=
        pollCurrentSource_advances h hinitial (h.full_of_running (by simpa using hrunning))
      split
      · rename_i event d' hpoll
        rw [hpoll] at hstep hinitial'
        exact ⟨hstep, hinitial'⟩
      · rename_i d' hpoll
        rw [hpoll] at hstep hinitial'
        obtain ⟨hrest, hinitial''⟩ := ih hstep.regular hinitial'
        exact ⟨hstep.trans hrest, hinitial''⟩
      · rename_i d' hpoll
        rw [hpoll] at hstep hinitial'
        exact ⟨hstep, hinitial'⟩

/-- Emitting what is there to be emitted advances the driver. -/
lemma pollAvailableEvent_advances {d : SearchDriver} (h : d.Regular script) :
    Advances script d (d.pollAvailableEvent script).1.toList (d.pollAvailableEvent script).2 := by
  obtain ⟨hstep, hinitial⟩ := nextInitialEvent_advances h
  rw [pollAvailableEvent]
  split
  · rename_i event d' hpoll
    rw [hpoll] at hstep
    exact hstep
  · rename_i d' hpoll
    rw [hpoll] at hstep hinitial
    exact hstep.trans (pollOrderedSourceEvent_advances hstep.regular (hinitial rfl)).1

/-- Polling the workers changes nothing about what is to be handled. -/
lemma pollWorkers_advances {d : SearchDriver} (h : d.Regular script) (round : Round) :
    Advances script d [] (d.pollWorkers round).2 := by
  have hrotation : ((d.pollWorkers round).2).rotation script = d.rotation script := by
    simp only [pollWorkers, rotation, RoundRobin.mk.injEq, and_true]
    refine List.ext_getElem (by simp) fun slot _ _ => ?_
    simp
  refine .of_eq ⟨h.lenient, h.going, h.active, ?_⟩ ?_ rfl rfl
  · rw [hrotation]
    refine h.full.imp_right fun hnil => ?_
    simp [pollWorkers, hnil]
  · simp only [remaining, hrotation]
    rfl

/-- One turn of the loop of a poll advances the driver by what is emitted; nothing is left when it
ends the stream. -/
lemma pollRound_advances {d : SearchDriver} (h : d.Regular script) (round : Round) :
    Advances script d ((d.pollRound script round).1.bind Poll.event?).toList
        (d.pollRound script round).2 ∧
      ((d.pollRound script round).1 = some (.ready none) →
        (d.pollRound script round).2.isComplete = true) := by
  have hfirst := pollAvailableEvent_advances h
  rw [pollRound]
  split
  · rename_i event d₁ hpoll
    rw [hpoll] at hfirst
    exact ⟨hfirst, by simp⟩
  · rename_i d₁ hpoll
    rw [hpoll] at hfirst
    obtain ⟨hregular, -, hremaining, -, hhandled, hdedupe⟩ := startReadySources_advances
      script hfirst.regular.lenient hfirst.regular.going hfirst.regular.active
    have hstarted : Advances script d [] (d₁.startReadySources script) :=
      hfirst.trans (.of_eq hregular hremaining hhandled hdedupe)
    have hworked := hstarted.trans (pollWorkers_advances hstarted.regular round)
    have hsecond := pollAvailableEvent_advances hworked.regular
    dsimp only
    split
    · rename_i event d₂ hpoll₂
      rw [hpoll₂] at hsecond
      exact ⟨hworked.trans hsecond, by simp⟩
    · rename_i d₂ hpoll₂
      rw [hpoll₂] at hsecond
      have hall := hworked.trans hsecond
      split
      · exact ⟨hall, by simp⟩
      · split
        · rename_i hcomplete
          exact ⟨hall, fun _ => hcomplete⟩
        · exact ⟨hall, by simp⟩

/-- **One poll.** Whatever the workers do meanwhile, a poll advances the driver by the event it
answers with, and it ends the stream only when nothing is left. -/
theorem pollNext_advances {d : SearchDriver} (h : d.Regular script) (rounds : List Round) :
    Advances script d (d.pollNext script rounds).1.event?.toList (d.pollNext script rounds).2 ∧
      ((d.pollNext script rounds).1 = .ready none →
        (d.pollNext script rounds).2.isComplete = true) := by
  induction rounds generalizing d with
  | nil =>
    obtain ⟨hstep, hend⟩ := pollRound_advances h .idle
    rw [pollNext]
    split
    · rename_i answer d' hpoll
      rw [hpoll] at hstep hend
      exact ⟨hstep, fun hready => hend (congrArg some hready)⟩
    · rename_i d' hpoll
      rw [hpoll] at hstep
      exact ⟨hstep, by simp⟩
  | cons round rounds ih =>
    obtain ⟨hstep, hend⟩ := pollRound_advances h round
    rw [pollNext]
    split
    · rename_i answer d' hpoll
      rw [hpoll] at hstep hend
      exact ⟨hstep, fun hready => hend (congrArg some hready)⟩
    · rename_i d' hpoll
      rw [hpoll] at hstep
      obtain ⟨hrest, hend'⟩ := ih hstep.regular
      exact ⟨hstep.trans hrest, hend'⟩

/-- What polls emit is what the first of them emit and then the others. -/
lemma emitted_append (polls more : List (List Round)) (d : SearchDriver) :
    d.emitted script (polls ++ more) =
      d.emitted script polls ++ (d.run script polls).2.emitted script more := by
  induction polls generalizing d with
  | nil => rfl
  | cons rounds polls ih =>
    have hrest := ih (d.pollNext script rounds).2
    simp only [emitted] at hrest ⊢
    cases hevent : (d.pollNext script rounds).1.event? <;> simp [run, hevent, hrest]

/-- Polls one after another advance the driver by what they emit. -/
theorem run_advances (polls : List (List Round)) {d : SearchDriver} (h : d.Regular script) :
    Advances script d (d.emitted script polls) (d.run script polls).2 := by
  induction polls generalizing d with
  | nil => exact .refl h
  | cons rounds polls ih =>
    have hstep := (pollNext_advances h rounds).1
    have hrest := hstep.trans (ih hstep.regular)
    rw [run, emitted, run]
    convert hrest using 1
    cases hevent : (d.pollNext script rounds).1.event? <;> simp [emitted, hevent]

/-! ## The end of a stream -/

/-- A complete driver has nothing left to handle. -/
lemma remaining_of_isComplete {d : SearchDriver} (h : d.isComplete = true) :
    d.remaining script = [] := by
  simp only [isComplete, Bool.and_eq_true, List.isEmpty_iff] at h
  have hslots : ((d.rotation script).fill d.maxActive).slots = [] := by
    simp [RoundRobin.fill, rotation, h]
  rw [remaining, h.1.1, List.nil_append, RoundRobin.order_of_nil hslots]

/-- Nothing is emitted any more once nothing is left. -/
lemma run_of_remaining_nil (polls : List (List Round)) {d : SearchDriver} (h : d.Regular script)
    (hnil : d.remaining script = []) :
    (d.run script polls).2.handled = d.handled ∧ (d.run script polls).2.remaining script = [] ∧
      d.emitted script polls = [] := by
  obtain ⟨taken, hrest, hhandled, hout⟩ := (run_advances polls h).taken
  rw [hnil] at hrest
  obtain ⟨htaken, hleft⟩ := List.append_eq_nil_iff.mp hrest.symm
  subst htaken
  refine ⟨by simpa using hhandled, hleft, ?_⟩
  have hempty := hout []
  simp only [List.append_nil, emissions] at hempty
  exact hempty.symm

/-- Once a poll has ended the stream, everything that was to be handled has been handled. -/
lemma handled_of_ready_none (polls : List (List Round)) {d : SearchDriver} (h : d.Regular script)
    (hend : .ready none ∈ (d.run script polls).1) :
    (d.run script polls).2.handled = d.handled ++ d.remaining script ∧
      d.emitted script polls = emissions d.dedupe (d.remaining script) := by
  have hnil : (d.run script polls).2.remaining script = [] := by
    induction polls generalizing d with
    | nil => simp [run] at hend
    | cons rounds polls ih =>
      obtain ⟨hstep, hcomplete⟩ := pollNext_advances h rounds
      rw [run] at hend ⊢
      obtain hhead | htail := List.mem_cons.mp hend
      · exact (run_of_remaining_nil polls hstep.regular
          (remaining_of_isComplete (hcomplete hhead.symm))).2.1
      · exact ih hstep.regular htail
  obtain ⟨taken, hrest, hhandled, hout⟩ := (run_advances polls h).taken
  rw [hnil, List.append_nil] at hrest
  rw [hrest, hhandled]
  have hall := hout []
  simp only [List.append_nil, emissions] at hall
  exact ⟨rfl, hall.symm⟩

/-! ## Every moment of a run -/

variable (script) in
/-- The assignments of the driver's methods. -/
inductive Assigns : SearchDriver → SearchDriver → Prop
  /-- The failures known beforehand are taken one by one. -/
  | initial (d : SearchDriver) (initial : List WorkerEvent) : Assigns d { d with initial := initial }
  /-- An event is taken. -/
  | mapped (d : SearchDriver) (event : WorkerEvent) : Assigns d (d.mapEvent event).2
  /-- A source is started. -/
  | started (d : SearchDriver) : Assigns d (d.startReadySource script)
  /-- An event is received. -/
  | received (d : SearchDriver) (slot : ℕ) (source : RunningSource) :
      Assigns d { d with running := d.running.set slot source }
  /-- The turn passes on. -/
  | turned (d : SearchDriver) (cursor : ℕ) : Assigns d { d with cursor := cursor }
  /-- A source is removed. -/
  | removed (d : SearchDriver) (slot : ℕ) :
      Assigns d { d with running := d.running.eraseIdx slot }
  /-- The workers are polled. -/
  | worked (d : SearchDriver) (round : Round) : Assigns d (d.pollWorkers round).2

variable (script) in
/-- A driver is reached from another by the assignments of its methods, in any order. -/
abbrev Reaches : SearchDriver → SearchDriver → Prop := Relation.ReflTransGen (Assigns script)

/-- No assignment makes more sources run than may. -/
lemma Assigns.length_running_le {d d' : SearchDriver} (h : Assigns script d d')
    (hle : d.running.length ≤ d.maxActive) :
    d'.running.length ≤ d'.maxActive ∧ d'.maxActive = d.maxActive := by
  cases h with
  | initial initial => exact ⟨hle, rfl⟩
  | mapped event =>
    cases event with
    | record source record => exact ⟨hle, rfl⟩
    | failed diagnostic =>
      simp only [mapEvent]
      split
      · exact ⟨Nat.zero_le _, rfl⟩
      · exact ⟨hle, rfl⟩
  | started =>
    simp only [startReadySource]
    split
    · rename_i hfree
      simp only [Bool.and_eq_true, decide_eq_true_eq] at hfree
      split
      · exact ⟨hle, rfl⟩
      · refine ⟨?_, rfl⟩
        simp only [List.length_append, List.length_singleton]
        exact hfree.2
    · exact ⟨hle, rfl⟩
  | received slot source => exact ⟨by simpa using hle, rfl⟩
  | turned cursor => exact ⟨hle, rfl⟩
  | removed slot => exact ⟨(List.length_eraseIdx_le _ _).trans hle, rfl⟩
  | worked round => exact ⟨by simpa [pollWorkers] using hle, rfl⟩

/-- At no moment are more sources running than may. -/
lemma Reaches.length_running_le {d d' : SearchDriver} (h : Reaches script d d')
    (hle : d.running.length ≤ d.maxActive) :
    d'.running.length ≤ d'.maxActive ∧ d'.maxActive = d.maxActive := by
  induction h with
  | refl => exact ⟨hle, rfl⟩
  | tail _ hstep ih =>
    obtain ⟨hle', hsame⟩ := hstep.length_running_le ih.1
    exact ⟨hle', hsame.trans ih.2⟩

/-- The failures known beforehand are taken by assignments. -/
lemma nextInitialEvent_reaches (script : PlannedSource → List WorkerEvent) (d : SearchDriver) : Reaches script d d.nextInitialEvent.2 := by
  rw [nextInitialEvent]
  generalize d.initial = initial
  induction initial generalizing d with
  | nil => exact .single (.initial d [])
  | cons event initial ih =>
    have hstep : Reaches script d ({ d with initial := initial }.mapEvent event).2 :=
      .head (.initial d initial) (.single (.mapped _ event))
    rw [nextInitialEvent.go]
    split
    · rename_i emitted d' hmap
      rw [hmap] at hstep
      exact hstep
    · rename_i d' hmap
      rw [hmap] at hstep
      exact hstep.trans (ih d')

/-- Sources are started by assignments. -/
lemma startReadySources_reaches (script : PlannedSource → List WorkerEvent) (d : SearchDriver) :
    Reaches script d (d.startReadySources script) := by
  rw [startReadySources]
  generalize d.pending.length = turns
  induction turns generalizing d with
  | zero => exact .refl
  | succ turns ih =>
    rw [Function.iterate_succ_apply]
    exact .head (.started d) (ih _)

/-- The cursor is put on a slot by an assignment. -/
lemma normalizeCursor_reaches (d : SearchDriver) : Reaches script d d.normalizeCursor := by
  rw [normalizeCursor]
  split
  · exact .single (.turned d 0)
  · exact .refl

/-- The turn passes on by an assignment. -/
lemma advanceCursor_reaches (d : SearchDriver) : Reaches script d d.advanceCursor := by
  rw [advanceCursor]
  split
  · exact .refl
  · exact .single (.turned d _)

/-- The source whose turn it is is polled by assignments. -/
lemma pollCurrentSource_reaches (script : PlannedSource → List WorkerEvent) (d : SearchDriver) :
    Reaches script d (d.pollCurrentSource script).2 := by
  refine (normalizeCursor_reaches d).trans ?_
  rw [pollCurrentSource]
  generalize d.normalizeCursor = d₁
  split
  · exact .refl
  · rename_i source _
    split
    · rename_i event rx _
      exact .head (.received d₁ d₁.cursor { source with rx := rx })
        (.head (.mapped _ event) (advanceCursor_reaches _))
    · split
      · exact .head (.removed d₁ d₁.cursor)
          ((normalizeCursor_reaches _).trans (startReadySources_reaches script _))
      · exact .refl

/-- What is there to be emitted is taken by assignments. -/
lemma pollAvailableEvent_reaches (script : PlannedSource → List WorkerEvent) (d : SearchDriver) :
    Reaches script d (d.pollAvailableEvent script).2 := by
  have hordered : ∀ turns (d : SearchDriver),
      Reaches script d (pollOrderedSourceEvent.go script turns d).2 := by
    intro turns
    induction turns with
    | zero => exact fun _ => .refl
    | succ turns ih =>
      intro d
      have hstep := pollCurrentSource_reaches script d
      rw [pollOrderedSourceEvent.go]
      split
      · exact .refl
      · split
        all_goals
          rename_i hpoll
          rw [hpoll] at hstep
        · exact hstep
        · exact hstep.trans (ih _)
        · exact hstep
  have hinitial := nextInitialEvent_reaches script d
  rw [pollAvailableEvent]
  split
  all_goals
    rename_i hpoll
    rw [hpoll] at hinitial
  · exact hinitial
  · exact hinitial.trans (hordered _ _)

/-- A poll consists of assignments. -/
lemma pollNext_reaches (rounds : List Round) (d : SearchDriver) :
    Reaches script d (d.pollNext script rounds).2 := by
  have hround : ∀ round (d : SearchDriver), Reaches script d (d.pollRound script round).2 := by
    intro round d
    have hfirst := pollAvailableEvent_reaches script d
    rw [pollRound]
    split
    · rename_i hpoll
      rw [hpoll] at hfirst
      exact hfirst
    · rename_i d₁ hpoll
      rw [hpoll] at hfirst
      have hworked := (hfirst.trans (startReadySources_reaches script d₁)).tail (.worked _ round)
      have hsecond := hworked.trans (pollAvailableEvent_reaches script _)
      dsimp only
      split
      all_goals
        rename_i hpoll₂
        rw [hpoll₂] at hsecond
      · exact hsecond
      · split
        · exact hsecond
        · split <;> exact hsecond
  induction rounds generalizing d with
  | nil =>
    have hstep := hround .idle d
    rw [pollNext]
    split
    all_goals
      rename_i hpoll
      rw [hpoll] at hstep
      exact hstep
  | cons round rounds ih =>
    have hstep := hround round d
    rw [pollNext]
    split
    all_goals
      rename_i hpoll
      rw [hpoll] at hstep
    · exact hstep
    · exact hstep.trans (ih _)

/-- A run consists of assignments. -/
lemma run_reaches (polls : List (List Round)) (d : SearchDriver) :
    Reaches script d (d.run script polls).2 := by
  induction polls generalizing d with
  | nil => exact .refl
  | cons rounds polls ih => exact (pollNext_reaches rounds d).trans (ih _)

end

end SearchDriver

end Comsat
