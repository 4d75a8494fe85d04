import Comsat.Engine.Schedule

set_option relaxedAutoImplicit false
set_option autoImplicit false

/-!
# Where events come from

Whether or not a failure ends the stream, the driver takes events that the workers of the planned
sources send or that are known beforehand, and it emits for them what the deduplication leaves.

## Main definitions

* `SearchDriver.Holds` — every event that the driver may still take is of a kind.
* `SearchDriver.Takes` — the driver takes events of the kind and emits for them.

## Main results

* `SearchDriver.run_takes` — so does every sequence of polls.
* `SearchDriver.handled_run` — what a run takes, and what it emits.
-/

namespace Comsat.SearchDriver

variable {script : PlannedSource → List WorkerEvent} {P : WorkerEvent → Prop}

/-! ## Taking events -/

variable (script P) in
/-- Every event that the driver may still take is of a kind. -/
structure Holds (d : SearchDriver) : Prop where
  initial : ∀ event ∈ d.initial, P event
  running : ∀ source ∈ d.running, ∀ event ∈ source.left, P event
  pending : ∀ planned ∈ d.pending, ∀ event ∈ script planned, P event

variable (script P) in
/-- The driver `d` took events of the kind, emitted `out` for them and became `d'`. -/
structure Takes (d : SearchDriver) (out : List EngineEvent) (d' : SearchDriver) : Prop where
  holds : d'.Holds script P
  taken : ∃ taken, (∀ event ∈ taken, P event) ∧ d'.handled = d.handled ++ taken ∧
    ∀ later, emissions d.dedupe (taken ++ later) = out ++ emissions d'.dedupe later

/-- What changes neither the taken events nor what was seen takes nothing. -/
lemma Takes.of_eq {d d' : SearchDriver} (h : d'.Holds script P) (hhandled : d'.handled = d.handled)
    (hdedupe : d'.dedupe = d.dedupe) : Takes script P d [] d' :=
  ⟨h, [], by simp, by simp [hhandled], fun later => by simp [hdedupe]⟩

/-- A driver that stays as it is takes nothing. -/
lemma Takes.refl {d : SearchDriver} (h : d.Holds script P) : Takes script P d [] d :=
  .of_eq h rfl rfl

/-- Events are taken one after the other. -/
lemma Takes.trans {d d' d'' : SearchDriver} {out out' : List EngineEvent}
    (h : Takes script P d out d') (h' : Takes script P d' out' d'') :
    Takes script P d (out ++ out') d'' := by
  obtain ⟨taken, hkind, hhandled, hout⟩ := h.taken
  obtain ⟨taken', hkind', hhandled', hout'⟩ := h'.taken
  refine ⟨h'.holds, taken ++ taken', ?_, ?_, fun later => ?_⟩
  · intro event hevent
    exact (List.mem_append.mp hevent).elim (hkind event) (hkind' event)
  · rw [hhandled', hhandled, List.append_assoc]
  · rw [List.append_assoc, hout, hout', List.append_assoc]

/-- An event of the kind is taken. A failure may end the stream. -/
lemma mapEvent_takes {d : SearchDriver} (h : d.Holds script P) {event : WorkerEvent}
    (hevent : P event) : Takes script P d (d.mapEvent event).1.toList (d.mapEvent event).2 := by
  have hsingle : ∀ other ∈ [event], P other := by simpa using hevent
  cases event with
  | record source record =>
    refine ⟨⟨h.initial, h.running, h.pending⟩, [_], hsingle, rfl, fun later => ?_⟩
    rw [mapEvent_fst]
    exact emissions_append d.dedupe [_] later
  | failed diagnostic =>
    refine ⟨?_, [_], hsingle, ?_, fun later => ?_⟩
    · rw [mapEvent]
      dsimp only
      split
      · exact ⟨h.initial, by simp [stop], by simp [stop]⟩
      · exact ⟨h.initial, h.running, h.pending⟩
    · rw [mapEvent]
      dsimp only
      split <;> rfl
    · have hsame : (d.mapEvent (.failed diagnostic)).2.dedupe = d.dedupe := by
        rw [mapEvent]
        dsimp only
        split <;> rfl
      rw [mapEvent_fst, hsame]
      exact emissions_append d.dedupe [_] later

/-! ## The driver's methods -/

/-- The failures known beforehand are taken. -/
lemma nextInitialEvent_takes {d : SearchDriver} (h : d.Holds script P) :
    Takes script P d d.nextInitialEvent.1.toList d.nextInitialEvent.2 := by
  have hgo : ∀ (initial : List WorkerEvent) (d : SearchDriver), d.Holds script P →
      (∀ event ∈ initial, P event) →
        Takes script P d (nextInitialEvent.go initial d).1.toList
          (nextInitialEvent.go initial d).2 := by
    intro initial
    induction initial with
    | nil =>
      intro d h hnil
      exact .of_eq ⟨hnil, h.running, h.pending⟩ rfl rfl
    | cons event initial ih =>
      intro d h hinitial
      have hrest : ∀ other ∈ initial, P other := fun other hother =>
        hinitial other (List.mem_cons_of_mem _ hother)
      have hholds : ({ d with initial := initial } : SearchDriver).Holds script P :=
        ⟨hrest, h.running, h.pending⟩
      have hfirst : Takes script P d [] { d with initial := initial } := .of_eq hholds rfl rfl
      have hstep := hfirst.trans (mapEvent_takes hholds (hinitial event (List.mem_cons_self ..)))
      rw [nextInitialEvent.go]
      split
      all_goals
        rename_i hmap
        rw [hmap] at hstep
      · exact hstep
      · exact hstep.trans (ih _ hstep.holds hrest)
  exact hgo d.initial d h h.initial

/-- Sources are started. -/
lemma startReadySources_takes {d : SearchDriver} (h : d.Holds script P) :
    Takes script P d [] (d.startReadySources script) := by
  rw [startReadySources]
  generalize d.pending.length = turns
  induction turns generalizing d with
  | zero => exact .refl h
  | succ turns ih =>
    have hstep : Takes script P d [] (d.startReadySource script) := by
      rw [startReadySource]
      split
      · split
        · exact .refl h
        · rename_i planned pending hpending
          refine .of_eq ⟨h.initial, fun source hsource => ?_, fun other hother => ?_⟩ rfl rfl
          · rcases List.mem_append.mp hsource with hsource | hsource
            · exact h.running source hsource
            · rw [List.mem_singleton.mp hsource]
              exact h.pending planned (by simp [hpending])
          · exact h.pending other (by simp [hpending, hother])
      · exact .refl h
    rw [Function.iterate_succ_apply]
    exact hstep.trans (ih hstep.holds)

/-- The turn changes nothing about the events. -/
lemma normalizeCursor_takes {d : SearchDriver} (h : d.Holds script P) :
    Takes script P d [] d.normalizeCursor := by
  rw [normalizeCursor]
  split
  · exact .of_eq ⟨h.initial, h.running, h.pending⟩ rfl rfl
  · exact .refl h

/-- The turn changes nothing about the events. -/
lemma advanceCursor_takes {d : SearchDriver} (h : d.Holds script P) :
    Takes script P d [] d.advanceCursor := by
  rw [advanceCursor]
  split
  · exact .refl h
  · exact .of_eq ⟨h.initial, h.running, h.pending⟩ rfl rfl

/-- What polling the source whose turn it is emits. -/
def SourcePoll.emitted : SourcePoll → List EngineEvent
  | .event event => [event]
  | .advanced => []
  | .pending => []

/-- Polling the source whose turn it is takes its next event, if it has sent one. -/
lemma pollCurrentSource_takes {d : SearchDriver} (h : d.Holds script P) :
    Takes script P d (SourcePoll.emitted (d.pollCurrentSource script).1)
      (d.pollCurrentSource script).2 := by
  have hnorm := normalizeCursor_takes h
  rw [pollCurrentSource]
  generalize d.normalizeCursor = d₁ at hnorm ⊢
  have h₁ := hnorm.holds
  split
  · exact hnorm
  · rename_i source hsource
    have hmem := List.mem_of_getElem? hsource
    split
    · rename_i event rx hrx
      have hleft : ∀ other ∈ source.left, P other := h₁.running source hmem
      have hholds : ({ d₁ with running := d₁.running.set d₁.cursor { source with rx := rx } } :
          SearchDriver).Holds script P := by
        refine ⟨h₁.initial, fun other hother => ?_, h₁.pending⟩
        rcases List.mem_or_eq_of_mem_set hother with hother | rfl
        · exact h₁.running other hother
        · intro event hevent
          refine hleft event ?_
          rw [RunningSource.left, hrx]
          exact List.mem_cons_of_mem _ hevent
      have hevent : P event := hleft event (by rw [RunningSource.left, hrx]; exact List.mem_cons_self ..)
      have hfirst : Takes script P d [] _ := hnorm.trans (.of_eq hholds rfl rfl)
      have hstep := hfirst.trans (mapEvent_takes hholds hevent)
      have hturn := hstep.trans (advanceCursor_takes hstep.holds)
      rw [consumeSourceEvent]
      dsimp only
      split
      all_goals
        rename_i hsome
        rw [hsome] at hturn
        exact hturn
    · split
      · have hholds : ({ d₁ with running := d₁.running.eraseIdx d₁.cursor } :
            SearchDriver).Holds script P :=
          ⟨h₁.initial, fun other hother => h₁.running other (List.mem_of_mem_eraseIdx hother),
            h₁.pending⟩
        have hfirst : Takes script P d [] _ := hnorm.trans (.of_eq hholds rfl rfl)
        have hnext := hfirst.trans (normalizeCursor_takes hholds)
        exact hnext.trans (startReadySources_takes hnext.holds)
      · exact hnorm

/-- What is there to be emitted is taken. -/
lemma pollAvailableEvent_takes {d : SearchDriver} (h : d.Holds script P) :
    Takes script P d (d.pollAvailableEvent script).1.toList (d.pollAvailableEvent script).2 := by
  have hordered : ∀ (turns : ℕ) (d : SearchDriver), d.Holds script P →
      Takes script P d (pollOrderedSourceEvent.go script turns d).1.toList
        (pollOrderedSourceEvent.go script turns d).2 := by
    intro turns
    induction turns with
    | zero => exact fun _ h => .refl h
    | succ turns ih =>
      intro d h
      have hstep := pollCurrentSource_takes h
      rw [pollOrderedSourceEvent.go]
      split
      · exact .refl h
      · split
        all_goals
          rename_i hpoll
          rw [hpoll] at hstep
        · exact hstep
        · exact hstep.trans (ih _ hstep.holds)
        · exact hstep
  have hinitial := nextInitialEvent_takes h
  rw [pollAvailableEvent]
  split
  all_goals
    rename_i hpoll
    rw [hpoll] at hinitial
  · exact hinitial
  · exact hinitial.trans (hordered _ _ hinitial.holds)

/-- Polling the workers takes nothing. -/
lemma pollWorkers_takes {d : SearchDriver} (h : d.Holds script P) (round : Round) :
    Takes script P d [] (d.pollWorkers round).2 := by
  refine .of_eq ⟨h.initial, fun source hsource => ?_, h.pending⟩ rfl rfl
  rw [pollWorkers] at hsource
  obtain ⟨polled, hpolled, rfl⟩ := List.mem_map.mp hsource
  obtain ⟨slot, hslot, rfl⟩ := List.mem_mapIdx.mp hpolled
  rw [RunningSource.left_pollFuture]
  exact h.running _ (List.getElem_mem hslot)

/-- **One poll** takes events of the kind and emits for them. -/
lemma pollNext_takes (rounds : List Round) {d : SearchDriver} (h : d.Holds script P) :
    Takes script P d (d.pollNext script rounds).1.event?.toList (d.pollNext script rounds).2 := by
  have hround : ∀ (round : Round) (d : SearchDriver), d.Holds script P →
      Takes script P d ((d.pollRound script round).1.bind Poll.event?).toList
        (d.pollRound script round).2 := by
    intro round d h
    have hfirst := pollAvailableEvent_takes h
    rw [pollRound]
    split
    · rename_i hpoll
      rw [hpoll] at hfirst
      exact hfirst
    · rename_i d₁ hpoll
      rw [hpoll] at hfirst
      have hstarted := hfirst.trans (startReadySources_takes hfirst.holds)
      have hworked := hstarted.trans (pollWorkers_takes hstarted.holds round)
      have hsecond := hworked.trans (pollAvailableEvent_takes hworked.holds)
      dsimp only
      split
      all_goals
        rename_i hpoll₂
        rw [hpoll₂] at hsecond
      · exact hsecond
      · split
        · exact hsecond
        · split <;> exact hsecond
  induction rounds generalizing d with
  | nil =>
    have hstep := hround .idle d h
    rw [pollNext]
    split
    all_goals
      rename_i hpoll
      rw [hpoll] at hstep
      exact hstep
  | cons round rounds ih =>
    have hstep := hround round d h
    rw [pollNext]
    split
    all_goals
      rename_i hpoll
      rw [hpoll] at hstep
    · exact hstep
    · exact hstep.trans (ih hstep.holds)

/-! ## Runs -/

/-- **A sequence of polls** takes events of the kind and emits for them. -/
theorem run_takes (polls : List (List Round)) {d : SearchDriver} (h : d.Holds script P) :
    Takes script P d (d.emitted script polls) (d.run script polls).2 := by
  induction polls generalizing d with
  | nil => exact .refl h
  | cons rounds polls ih =>
    have hstep := pollNext_takes rounds h
    have hrest := hstep.trans (ih hstep.holds)
    rw [run, emitted, run]
    convert hrest using 1
    cases hevent : (d.pollNext script rounds).1.event? <;> simp [emitted, hevent]

/-- **What a run takes**: what the workers of the planned sources send, or failures that are known
beforehand; and it emits for these events what the deduplication leaves. -/
theorem handled_run (sources : List CatalogSource) (plan : StreamPlan) (limits : EngineLimits)
    (script : PlannedSource → List WorkerEvent) (polls : List (List Round)) :
    (∀ event ∈ ((new sources plan limits).run script polls).2.handled,
      (∃ planned ∈ (planSources sources plan).1, event ∈ script planned) ∨
        ∃ diagnostic, event = .failed diagnostic) ∧
      (new sources plan limits).emitted script polls =
        emissions .empty ((new sources plan limits).run script polls).2.handled := by
  have hholds : (new sources plan limits).Holds script fun event =>
      (∃ planned ∈ (planSources sources plan).1, event ∈ script planned) ∨
        ∃ diagnostic, event = .failed diagnostic := by
    refine ⟨fun event hevent => ?_, by simp [new], fun planned hplanned event hevent =>
      .inl ⟨planned, hplanned, hevent⟩⟩
    obtain ⟨diagnostic, -, rfl⟩ := List.mem_map.mp hevent
    exact .inr ⟨diagnostic, rfl⟩
  obtain ⟨taken, hkind, hhandled, hout⟩ := (run_takes polls hholds).taken
  have hnil : (new sources plan limits).handled = [] := rfl
  rw [hnil, List.nil_append] at hhandled
  have hall := hout []
  rw [List.append_nil, emissions, List.append_nil] at hall
  rw [hhandled]
  exact ⟨hkind, hall.symm⟩

end Comsat.SearchDriver
