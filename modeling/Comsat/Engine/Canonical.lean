import Comsat.Engine.Schedule

set_option relaxedAutoImplicit false
set_option autoImplicit false

/-!
# The canonical stream of a search

What a search emits is a prefix of one sequence that is fixed by the set of the selected sources,
the number of sources that may run at once and what each of them sends.

## Main definitions

* `SourceScript` — what one source sends.
* `canonicalOrder`, `canonical` — all events of the selected sources in the order of the rotation,
  and what they emit.
* `Consumed` — every selected source was consumed exactly once, in its own order.

## Main results

* `canonicalOrder_consumed` — the canonical order consumes every selected source.
* `SearchDriver.search_schedule_independent` — whatever the timing, the emitted events are a prefix
  of the canonical ones; a stream that ends has consumed every source; never are more sources
  running than may be.
-/

namespace Comsat

/-- What one source sends: events about itself. -/
structure SourceScript (source : SourceId) where
  /-- The events, in order. -/
  events : List WorkerEvent
  /-- The events are about the source. -/
  own : ∀ event ∈ events, event.source = source

/-- What a source that is not registered amounts to: one failure. -/
def SourceScript.missing (source : SourceId) : SourceScript source :=
  ⟨[.failed (sourceNotFound source)], by simp [WorkerEvent.source, sourceNotFound]⟩

section

variable (script : ∀ source, SourceScript source) (registered searchable selected : Finset SourceId)

/-- The events of the selected sources, in the order of a rotation over `maxActive` of them. -/
def canonicalOrder (maxActive : ℕ) : List WorkerEvent :=
  ((selected \ registered).sort.map fun source => (SourceScript.missing source).events).flatten ++
    RoundRobin.merge maxActive
      ((selected ∩ searchable).sort.map fun source => (script source).events)

/-- What the canonical order emits. -/
def canonical (maxActive : ℕ) : List EngineEvent :=
  emissions .empty (canonicalOrder script registered searchable selected maxActive)

/-- The handled events consume every selected source once, in its own order, and `emitted` holds
all their failures and each of their records that no earlier emitted record shares a key with. -/
structure Consumed (handled : List WorkerEvent) (emitted : List EngineEvent) : Prop where
  /-- A source that can be searched is consumed once, in its own order. -/
  source : ∀ source ∈ selected ∩ searchable,
    (handled.filter fun event => event.source = source) = (script source).events
  /-- A source that is not registered has failed once. -/
  missing : ∀ source ∈ selected \ registered,
    (handled.filter fun event => event.source = source) = [.failed (sourceNotFound source)]
  /-- No other source was consumed. -/
  only : ∀ event ∈ handled, event.source ∈ (selected ∩ searchable) ∪ (selected \ registered)
  /-- Every failure is emitted, in order. -/
  failure : emitted.filterMap EngineEvent.failure? = handled.filterMap WorkerEvent.failure?
  /-- Every record is emitted at its turn or a duplicate of one emitted before. -/
  record : ∀ before source record after, handled = before ++ .record source record :: after →
    (∃ later, emitted = emissions .empty before ++ .record record :: later) ∨
    ∃ earlier, .record earlier ∈ emissions .empty before ∧ SharesKey earlier record

variable {script registered searchable selected}

namespace Consumed

variable {handled : List WorkerEvent} {emitted : List EngineEvent}
  (h : Consumed script registered searchable selected handled emitted)
include h

/-- A handled event about a source that can be searched is one of its script. -/
lemma mem_script {event : WorkerEvent} (hmem : event ∈ handled)
    (hsource : event.source ∈ selected ∩ searchable) : event ∈ (script event.source).events := by
  rw [← h.source _ hsource]
  exact List.mem_filter.mpr ⟨hmem, by simp⟩

/-- The events of the script of a selected source are handled. -/
lemma mem_of_script {source : SourceId} (hsource : source ∈ selected ∩ searchable)
    {event : WorkerEvent} (hmem : event ∈ (script source).events) : event ∈ handled := by
  rw [← h.source _ hsource] at hmem
  exact List.mem_of_mem_filter hmem

/-- A handled event about a source that is not registered is its failure. -/
lemma eq_of_missing {event : WorkerEvent} (hmem : event ∈ handled)
    (hsource : event.source ∈ selected \ registered) :
    event = .failed (sourceNotFound event.source) := by
  have hfiltered : event ∈ handled.filter fun other => other.source = event.source :=
    List.mem_filter.mpr ⟨hmem, by simp⟩
  rw [h.missing _ hsource] at hfiltered
  exact List.mem_singleton.mp hfiltered

/-- A selected source that is not registered fails. -/
lemma mem_of_missing {source : SourceId} (hsource : source ∈ selected \ registered) :
    .failed (sourceNotFound source) ∈ handled := by
  have hmem := h.missing source hsource ▸ List.mem_singleton_self _
  exact List.mem_of_mem_filter hmem

end Consumed

/-- Among the scripts of distinct sources, only one has events about a given source. -/
lemma alone_scripts (sources : List SourceId) (hnodup : sources.Nodup) (source : SourceId) :
    RoundRobin.Alone (fun event : WorkerEvent => event.source = source)
      (sources.map fun source => (script source).events) := by
  rw [RoundRobin.Alone, List.pairwise_map]
  refine hnodup.imp fun {a b} hne => ?_
  by_cases ha : a = source
  · refine .inr fun event hevent => ?_
    have hb : b ≠ source := fun hb => hne (ha.trans hb.symm)
    simp [(script b).own event hevent, hb]
  · exact .inl fun event hevent => by simp [(script a).own event hevent, ha]

/-- No events are about a source whose script is not among the given ones. -/
lemma filter_flatten_scripts_of_not_mem {sources : List SourceId} {source : SourceId}
    (hmem : source ∉ sources) :
    ((sources.map fun source => (script source).events).flatten.filter
      fun event => event.source = source) = [] := by
  rw [List.filter_eq_nil_iff]
  intro event hevent
  obtain ⟨events, hevents, hin⟩ := List.mem_flatten.mp hevent
  obtain ⟨other, hother, rfl⟩ := List.mem_map.mp hevents
  have hne : other ≠ source := fun h => hmem (h ▸ hother)
  simp [(script other).own event hin, hne]

/-- The events about a source among the scripts of distinct sources are its script. -/
lemma filter_flatten_scripts {sources : List SourceId} (hnodup : sources.Nodup)
    {source : SourceId} (hmem : source ∈ sources) :
    ((sources.map fun source => (script source).events).flatten.filter
      fun event => event.source = source) = (script source).events := by
  induction sources with
  | nil => simp at hmem
  | cons other sources ih =>
    obtain ⟨hother, hnodup⟩ := List.nodup_cons.mp hnodup
    rw [List.map_cons, List.flatten_cons, List.filter_append]
    by_cases heq : other = source
    · subst heq
      have hown : ((script other).events.filter fun event => event.source = other) =
          (script other).events :=
        List.filter_eq_self.mpr fun event hevent => by simp [(script other).own event hevent]
      rw [filter_flatten_scripts_of_not_mem hother, hown, List.append_nil]
    · have hnone : ((script other).events.filter fun event => event.source = source) = [] := by
        rw [List.filter_eq_nil_iff]
        intro event hevent
        simp [(script other).own event hevent, heq]
      rw [hnone, ih hnodup ((List.mem_cons.mp hmem).resolve_left (Ne.symm heq)), List.nil_append]

/-- The merged events about a source are those of its script. -/
lemma filter_merge_scripts {maxActive : ℕ} (hactive : 0 < maxActive) (sources : Finset SourceId)
    (source : SourceId) :
    ((RoundRobin.merge maxActive (sources.sort.map fun source => (script source).events)).filter
      fun event => event.source = source) =
      ((sources.sort.map fun source => (script source).events).flatten.filter
        fun event => event.source = source) :=
  RoundRobin.merge_filter hactive (alone_scripts _ (Finset.sort_nodup _ _) source)

/-- **The canonical order consumes every source.** Each selected source once, in its own order. -/
theorem canonicalOrder_consumed (hsubset : searchable ⊆ registered) {maxActive : ℕ}
    (hactive : 0 < maxActive) :
    Consumed script registered searchable selected
      (canonicalOrder script registered searchable selected maxActive)
      (canonical script registered searchable selected maxActive) where
  source source hsource := by
    have hmissing : source ∉ (selected \ registered).sort := by
      simp [hsubset (Finset.mem_inter.mp hsource).2]
    rw [canonicalOrder, List.filter_append, filter_flatten_scripts_of_not_mem hmissing,
      filter_merge_scripts hactive, List.nil_append]
    exact filter_flatten_scripts (Finset.sort_nodup _ _) ((Finset.mem_sort _).mpr hsource)
  missing source hsource := by
    have hsearchable : source ∉ (selected ∩ searchable).sort := by
      intro hmem
      have hin := (Finset.mem_inter.mp ((Finset.mem_sort _).mp hmem)).2
      exact (Finset.mem_sdiff.mp hsource).2 (hsubset hin)
    rw [canonicalOrder, List.filter_append, filter_merge_scripts hactive,
      filter_flatten_scripts_of_not_mem hsearchable, List.append_nil]
    exact filter_flatten_scripts (Finset.sort_nodup _ _) ((Finset.mem_sort _).mpr hsource)
  only event hevent := by
    have hscripts : ∀ {script : ∀ source, SourceScript source} {sources : Finset SourceId},
        event ∈ (sources.sort.map fun source => (script source).events).flatten →
        event.source ∈ sources := by
      intro script sources hmem
      obtain ⟨events, hevents, hin⟩ := List.mem_flatten.mp hmem
      obtain ⟨source, hsource, rfl⟩ := List.mem_map.mp hevents
      rw [(script source).own event hin]
      exact (Finset.mem_sort _).mp hsource
    obtain hmissing | hmerged := List.mem_append.mp hevent
    · exact Finset.mem_union_right _ (hscripts hmissing)
    · have hflat := (RoundRobin.merge_perm hactive _).mem_iff.mp hmerged
      exact Finset.mem_union_left _ (hscripts hflat)
  failure := filterMap_failure_emissions _ _
  record before source record after hsplit := by
    rw [canonical, hsplit]
    exact emitted_or_duplicate before after source record

end

/-! ## Searches -/

namespace SearchDriver

/-- The worker of a planned source sends its script. -/
def scripted (script : ∀ source, SourceScript source) (planned : PlannedSource) :
    List WorkerEvent :=
  (script planned.source.id).events

section

variable (catalog : SourceCatalog) (request : SearchRequest) (limits : EngineLimits)
  (script : ∀ source, SourceScript source)

/-- The driver of a search that is not strict starts regularly. -/
lemma regular_new (hstrict : request.strict = false) (worker : PlannedSource → List WorkerEvent) :
    (new catalog.sources (.search request) limits).Regular worker :=
  ⟨hstrict, rfl, lt_max_of_lt_right one_pos, .inr rfl⟩

/-- What a search is going to handle is the canonical order of the scripts of its workers. -/
lemma remaining_new {worker : PlannedSource → List WorkerEvent}
    (hworker : ∀ planned ∈ (planSearch catalog.sources request).1,
      worker planned = (script planned.source.id).events) :
    (new catalog.sources (.search request) limits).remaining worker =
      canonicalOrder script catalog.registered catalog.searchable
        (catalog.selectedSet request.sources) (max limits.maxActiveSources 1) := by
  have hpending : (planSearch catalog.sources request).1.map worker =
      (catalog.selectedSet request.sources ∩ catalog.searchable).sort.map
        fun source => (script source).events := by
    rw [← catalog.planSearch_pending request, List.map_map]
    exact List.map_congr_left hworker
  have hinitial : (planSearch catalog.sources request).2.1.map WorkerEvent.failed =
      ((catalog.selectedSet request.sources \ catalog.registered).sort.map
        fun source => (SourceScript.missing source).events).flatten := by
    rw [catalog.planSearch_diagnostics, List.map_map, ← List.flatMap_def]
    exact List.map_eq_flatMap
  rw [canonicalOrder, ← hinitial, ← hpending]
  rfl

/-- **The merged stream does not depend on timing.** For every non-strict search of every catalog,
whatever each source sends and whenever its events become available: the emitted events are at
every moment a prefix of the canonical ones, which depend only on the sets of the selected,
registered and searchable identifiers, the number of sources that may run and the scripts; the
stream ends only when every selected source was consumed exactly once; and at every moment of the
run at most `max_active` sources are running.

**Proof sketch.** A poll takes the first of the remaining events and emits for them
(`run_advances`), and at first the remaining events are the canonical order (`remaining_new`). -/
theorem search_schedule_independent (hstrict : request.strict = false)
    (polls : List (List Round)) :
    let driver := new catalog.sources (.search request) limits
    let worker := scripted script
    let selected := catalog.selectedSet request.sources
    let maxActive := max limits.maxActiveSources 1
    let stream := canonical script catalog.registered catalog.searchable selected maxActive
    driver.emitted worker polls <+: stream ∧
    (.ready none ∈ (driver.run worker polls).1 →
      driver.emitted worker polls = stream ∧
      Consumed script catalog.registered catalog.searchable selected
        (driver.run worker polls).2.handled (driver.emitted worker polls)) ∧
    Reaches worker driver (driver.run worker polls).2 ∧
    ∀ moment, Reaches worker driver moment → moment.running.length ≤ maxActive := by
  intro driver worker selected maxActive stream
  have hregular : driver.Regular worker := regular_new catalog request limits hstrict worker
  have hremaining : driver.remaining worker = canonicalOrder script _ _ selected maxActive :=
    remaining_new catalog request limits script fun _ _ => rfl
  refine ⟨?_, fun hend => ?_, run_reaches polls driver, fun moment hmoment => ?_⟩
  · obtain ⟨taken, hrest, -, hout⟩ := (run_advances polls hregular).taken
    exact ⟨_, by rw [← hout, ← hrest, hremaining]; rfl⟩
  · obtain ⟨hhandled, hemitted⟩ := handled_of_ready_none polls hregular hend
    rw [hremaining] at hhandled hemitted
    have hconsumed : Consumed script catalog.registered catalog.searchable selected
        (canonicalOrder script _ _ _ maxActive) stream :=
      canonicalOrder_consumed catalog.searchable_subset (lt_max_of_lt_right one_pos)
    rw [hhandled, hemitted]
    exact ⟨rfl, hconsumed⟩
  · obtain ⟨hle, hsame⟩ := hmoment.length_running_le (Nat.zero_le _)
    rw [hsame] at hle
    exact hle

end

/-- A registered source that can be searched and has no tools. -/
def bareSource (id : SourceId) : CatalogSource :=
  ⟨.new id "" ⟨true, false, false⟩, fun _ _ => ⟨[], .ok .null⟩⟩

/-- Two sources that send one record each, at different addresses. -/
def oneRecord (source : SourceId) : SourceScript source :=
  ⟨[.record source ⟨⟨"1", by decide⟩, source, "story", source.value, none, none, none, none, none,
    .obj []⟩], by simp [WorkerEvent.source]⟩

/-- The schedule theorem applies: the second source has sent its record before the first one has,
and the stream waits for the first. -/
theorem search_schedule_independent_waits :
    let a : SourceId := ⟨"a", by decide⟩
    let b : SourceId := ⟨"b", by decide⟩
    let driver := new [bareSource b, bareSource a]
      (.search ⟨⟨"q", none, none, none⟩, [b, a, b], false⟩) .default
    let polls : List (List Round) := [[fun slot => ⟨slot, true⟩]]
    (driver.emitted (scripted oneRecord) polls).length = 0 ∧
    driver.emitted (scripted oneRecord) polls <+: canonical oneRecord {a, b} {a, b} {a, b} 4 := by
  intro a b driver polls
  let catalog : SourceCatalog := ⟨[bareSource b, bareSource a], by decide⟩
  have h := search_schedule_independent catalog ⟨⟨"q", none, none, none⟩, [b, a, b], false⟩
    .default oneRecord rfl polls
  have hregistered : catalog.registered = {a, b} := by decide
  have hsearchable : catalog.searchable = {a, b} := by decide
  have hselected : catalog.selectedSet [b, a, b] = {a, b} := by decide
  refine ⟨by decide, ?_⟩
  have hfirst := h.1
  rw [hregistered, hsearchable, hselected] at hfirst
  exact hfirst

end SearchDriver

end Comsat
