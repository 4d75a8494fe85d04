import Comsat.Engine.Budget
import Comsat.Engine.Canonical
import Comsat.Types.JsonSize
import Mathlib

set_option relaxedAutoImplicit false
set_option autoImplicit false

/-!
# What a search collects

The records of a search are some of the records that its workers send, each of them once. They are
read from values within the budgets of the sources, which bounds their size.

## Main definitions

* `SearchDriver.collected` — what a search with given limits came to after some polls.

## Main results

* `SearchDriver.collected_subperm` — the records are some of those that the workers send.
* `SearchDriver.collected_bytes_le` — their size, from the number of sources and the byte budget.
-/

namespace Comsat

/-! ## Records of events -/

/-- The record of an event of a worker. -/
def WorkerEvent.record? : WorkerEvent → Option Record
  | .record _ sent => some sent
  | .failed _ => none

/-- The record of an emitted event. -/
def EngineEvent.record? : EngineEvent → Option Record
  | .record emitted => some emitted
  | .sourceFailed _ => none

/-- The records that are collected are those of the events. -/
lemma SearchOutcome.records_collect (events : List EngineEvent) :
    (collect events).records = events.filterMap EngineEvent.record? := by
  induction events with
  | nil => rfl
  | cons event events ih =>
    cases event with
    | record record =>
      rw [collect, List.filterMap_cons_some (show EngineEvent.record? _ = some record from rfl), ih]
    | sourceFailed diagnostic =>
      rw [collect, List.filterMap_cons_none (show EngineEvent.record? _ = none from rfl), ih]

/-- Only records of the events are emitted, in order. -/
lemma records_emissions_sublist (dedupe : DedupeSet) (events : List WorkerEvent) :
    ((emissions dedupe events).filterMap EngineEvent.record?).Sublist
      (events.filterMap WorkerEvent.record?) := by
  induction events generalizing dedupe with
  | nil => exact .slnil
  | cons event events ih =>
    cases event with
    | failed diagnostic => exact ih dedupe
    | record source record =>
      rw [emissions, List.filterMap_append,
        List.filterMap_cons_some (show WorkerEvent.record? _ = some record from rfl)]
      split
      · exact (ih _).cons_cons record
      · exact (ih _).cons record

/-- The records of accepted values are sent. -/
lemma records_acceptedEvents (source : SourceId) (accepted : List (Json × Record))
    (failure : Option EngineDiagnostic) :
    (acceptedEvents source accepted ++ (failure.map WorkerEvent.failed).toList).filterMap
      WorkerEvent.record? = accepted.map Prod.snd := by
  have hnone : (failure.map WorkerEvent.failed).toList.filterMap WorkerEvent.record? = [] := by
    cases failure <;> rfl
  rw [List.filterMap_append, hnone, List.append_nil, acceptedEvents, List.filterMap_map]
  exact List.filterMap_eq_map_iff_forall_eq_some.mpr fun entry _ => rfl

/-! ## Searches -/

namespace SearchDriver

variable [ExternalParsers] (catalog : SourceCatalog) (request : SearchRequest)
  (limits : EngineLimits) (polls : List (List Round))

/-- What a search came to after some polls. -/
def collected : SearchOutcome :=
  .collect ((new catalog.sources (.search request) limits).emitted (runSourceOperation limits) polls)

variable {request}

/-- **What is collected**: some of the records that the workers of the planned sources send.

**Proof sketch.** The events that were taken come first among those that remain at first, and these
are the failures that are known beforehand and the merged events of the workers. -/
theorem collected_subperm (hstrict : request.strict = false) :
    (collected catalog request limits polls).records.Subperm
      ((planSearch catalog.sources request).1.flatMap fun planned =>
        (runSourceOperation limits planned).filterMap WorkerEvent.record?) := by
  set d := new catalog.sources (.search request) limits with hd
  have hregular : d.Regular (runSourceOperation limits) :=
    regular_new catalog request limits hstrict _
  obtain ⟨taken, hrest, -, hout⟩ := (run_advances polls hregular).taken
  have hemitted := hout []
  rw [List.append_nil, emissions, List.append_nil] at hemitted
  -- the records that remain at first
  have hremaining : d.remaining (runSourceOperation limits) =
      (planSearch catalog.sources request).2.1.map WorkerEvent.failed ++
        RoundRobin.merge d.maxActive
          ((planSearch catalog.sources request).1.map (runSourceOperation limits)) := rfl
  have hfailures : ∀ diagnostics : List EngineDiagnostic,
      (diagnostics.map WorkerEvent.failed).filterMap WorkerEvent.record? = [] := fun diagnostics =>
    List.filterMap_eq_nil_iff.mpr fun event hevent => by
      obtain ⟨diagnostic, -, rfl⟩ := List.mem_map.mp hevent
      rfl
  have hall : ((d.remaining (runSourceOperation limits)).filterMap WorkerEvent.record?).Perm
      ((planSearch catalog.sources request).1.flatMap fun planned =>
        (runSourceOperation limits planned).filterMap WorkerEvent.record?) := by
    have hmerge := (RoundRobin.merge_perm hregular.active
      ((planSearch catalog.sources request).1.map (runSourceOperation limits))).filterMap
        WorkerEvent.record?
    rw [hremaining, List.filterMap_append, hfailures, List.nil_append]
    refine hmerge.trans (List.Perm.of_eq ?_)
    rw [← List.flatMap_def, List.filterMap_flatMap]
  have htaken : (taken.filterMap WorkerEvent.record?).Sublist
      ((d.remaining (runSourceOperation limits)).filterMap WorkerEvent.record?) := by
    rw [hrest]
    exact (List.sublist_append_left _ _).filterMap _
  rw [collected, SearchOutcome.records_collect, ← hemitted]
  exact ((records_emissions_sublist _ _).trans htaken).subperm.trans hall.subperm

omit [ExternalParsers] in
/-- No more sources are planned than there are. -/
lemma length_planSearch_le : (planSearch catalog.sources request).1.length ≤
    catalog.sources.length := by
  rw [← List.length_map (f := fun planned : PlannedSource => planned.source.id),
    catalog.planSearch_pending, Finset.length_sort]
  refine (Finset.card_le_card Finset.inter_subset_right).trans ?_
  refine (List.toFinset_card_le _).trans ?_
  rw [List.length_map]
  exact List.length_filter_le _ _

/-! ## Sizes -/

/-- What a record takes beyond the names of its fields. -/
def excessBytes (record : Record) : ℕ := record.toJson.byteLength - 88

omit [ExternalParsers] in
/-- Sums over records, with the names of the fields. -/
lemma sum_byteLength_le (records : List Record) :
    (records.map fun record => record.toJson.byteLength).sum ≤
      (records.map excessBytes).sum + 88 * records.length := by
  induction records with
  | nil => simp
  | cons record records ih =>
    simp only [List.map_cons, List.sum_cons, List.length_cons, excessBytes] at ih ⊢
    omega

/-- What the worker of a source sends is within the byte budget. -/
lemma sum_excessBytes_worker_le (hbudget : limits.maxBytesPerSource < usizeMax)
    (planned : PlannedSource) :
    (((runSourceOperation limits planned).filterMap WorkerEvent.record?).map excessBytes).sum ≤
      limits.maxBytesPerSource := by
  obtain ⟨accepted, state, failure, haccepts, -, hevents⟩ := runSourceOperation_shape limits planned
  have hbytes := haccepts.bytes
  have hread : (accepted.map fun entry => excessBytes entry.2).sum ≤ acceptedBytes accepted :=
    List.sum_le_sum fun entry hentry => by
      have hle := Record.byteLength_le_of_fromValue (haccepts.decoded entry hentry).1
      rw [excessBytes]
      omega
  rw [hevents, records_acceptedEvents, List.map_map]
  change (accepted.map fun entry => excessBytes entry.2).sum ≤ _
  omega

/-- **The size of what is collected**: the byte budget of every source, and the names of the fields
of the records.

**Proof sketch.** Every record was read from a value that was counted, and takes at most 88 bytes
more (`Record.byteLength_le_of_fromValue`). -/
theorem collected_bytes_le (hstrict : request.strict = false)
    (hbudget : limits.maxBytesPerSource < usizeMax) :
    ((collected catalog request limits polls).records.map
        fun record => record.toJson.byteLength).sum ≤
      catalog.sources.length * limits.maxBytesPerSource +
        88 * (collected catalog request limits polls).records.length := by
  obtain ⟨sent, hperm, hsublist⟩ := collected_subperm catalog limits polls hstrict
  have hworkers : ∀ sources : List PlannedSource,
      ((sources.flatMap fun planned =>
        (runSourceOperation limits planned).filterMap WorkerEvent.record?).map excessBytes).sum ≤
          sources.length * limits.maxBytesPerSource := by
    intro sources
    induction sources with
    | nil => simp
    | cons planned sources ih =>
      have hfirst := sum_excessBytes_worker_le limits hbudget planned
      rw [List.flatMap_cons, List.map_append, List.sum_append, List.length_cons, Nat.succ_mul]
      omega
  calc _ ≤ _ := sum_byteLength_le _
    _ = (sent.map excessBytes).sum + _ := by rw [(hperm.map excessBytes).sum_eq]
    _ ≤ _ := Nat.add_le_add_right ((hsublist.map excessBytes).sum_le_sum fun _ _ => Nat.zero_le _) _
    _ ≤ _ := Nat.add_le_add_right ((hworkers _).trans
      (Nat.mul_le_mul_right _ (length_planSearch_le catalog))) _

/-! ## A search of one source -/

/-- Every worker sends its next event, and returns once it has sent all of them. -/
def promptly : Round := fun _ => ⟨1, true⟩

/-- A source that returns a valid record within its budget sends it. -/
lemma runSourceOperation_of_ok {limits : EngineLimits} {planned : PlannedSource} {tool : String}
    {record : Record} (htool : planned.source.descriptor.toolName planned.operation = some tool)
    (hrun : planned.source.catalog tool planned.input.arguments = ⟨[], .ok record.toJson⟩)
    (hvalid : record.validate = .ok ()) (hfits : Fits limits [record.toJson]) :
    runSourceOperation limits planned = [.record planned.source.id record] := by
  have hrecord : validRecord record.toJson = some record := by
    simp [validRecord, Record.fromValue_toJson, hvalid]
  obtain ⟨hnone, hevents⟩ := emitRecordValue_accepts planned.source.id SinkState.Counts.start rfl
    hfits.counted hrecord
  have hfinal : emitFinalData limits planned.source.id .start record.toJson =
      emitRecordValue limits planned.source.id .start record.toJson := rfl
  have hfinish : finishStreamOutcome limits planned.source.id .start (.ok record.toJson) =
      (emitFinalData limits planned.source.id .start record.toJson).2 ++
        ((emitFinalData limits planned.source.id .start record.toJson).1.budgetError.map
          failedEvent).toList := by
    simp only [finishStreamOutcome, SinkState.start, ↓reduceIte]
  unfold runSourceOperation
  rw [htool]
  dsimp only
  rw [hrun, emitChunks]
  dsimp only
  rw [hfinish, hfinal, hnone, hevents]
  rfl

/-- A search of one source that sends one record collects it. -/
lemma collected_single {source : CatalogSource} {query : Query} {limits : EngineLimits}
    {record : Record} (hsearch : source.descriptor.supports .search = true)
    (hscript : runSourceOperation limits (plannedSearch source ⟨query, [], false⟩) =
      [.record source.id record]) :
    collected ⟨[source], List.nodup_singleton _⟩ ⟨query, [], false⟩ limits [[promptly]] =
      ⟨[record], []⟩ := by
  have hplan : planSearch [source] ⟨query, [], false⟩ =
      ([plannedSearch source ⟨query, [], false⟩], [], false) := by
    simp [planSearch, selectedSourceIds, sortDedup, sourcesById, missingSourceDiagnostics, hsearch]
  have hnew : new [source] (.search ⟨query, [], false⟩) limits =
      ⟨[], [plannedSearch source ⟨query, [], false⟩], [], .empty, max limits.maxActiveSources 1,
        false, false, 0, []⟩ := by
    rw [new, planSources, hplan]
    rfl
  have hactive : 0 < max limits.maxActiveSources 1 := lt_max_of_lt_right one_pos
  have hfresh : (DedupeSet.empty.insert record).1 = true :=
    (DedupeSet.insert_fst _ _).mpr fun key _ => Finset.notMem_empty key
  rw [collected, hnew]
  generalize max limits.maxActiveSources 1 = active at hactive
  -- one poll: the source is started, sends its record and returns
  have hemitted : emitted (runSourceOperation limits) [[promptly]]
      ⟨[], [plannedSearch source ⟨query, [], false⟩], [], .empty, active, false, false, 0, []⟩ =
        [.record record] := by
    simp [hfresh, hactive, hscript, promptly, emitted, run, pollNext, pollRound, pollAvailableEvent,
      nextInitialEvent, nextInitialEvent.go, pollOrderedSourceEvent, pollOrderedSourceEvent.go,
      startReadySources, startReadySource, pollWorkers, RunningSource.pollFuture, pollCurrentSource,
      normalizeCursor, consumeSourceEvent, mapEvent, advanceCursor]
    rfl
  rw [hemitted]
  rfl

/-- A search of three sources that send one record each, which share no key, collects them. -/
lemma collected_three {a b c : CatalogSource} (hids : [a.id, b.id, c.id].Nodup) {query : Query}
    {limits : EngineLimits} {ra rb rc : Record} (hlimits : limits.maxActiveSources = 4)
    (hplan : planSearch [a, b, c] ⟨query, [], false⟩ =
      ([a, b, c].map fun source => plannedSearch source ⟨query, [], false⟩, [], false))
    (ha : runSourceOperation limits (plannedSearch a ⟨query, [], false⟩) = [.record a.id ra])
    (hb : runSourceOperation limits (plannedSearch b ⟨query, [], false⟩) = [.record b.id rb])
    (hc : runSourceOperation limits (plannedSearch c ⟨query, [], false⟩) = [.record c.id rc])
    (hfirst : (DedupeSet.empty.insert ra).1 = true)
    (hsecond : ((DedupeSet.empty.insert ra).2.insert rb).1 = true)
    (hthird : (((DedupeSet.empty.insert ra).2.insert rb).2.insert rc).1 = true) :
    collected ⟨[a, b, c], hids⟩ ⟨query, [], false⟩ limits [[promptly], [promptly], [promptly]] =
      ⟨[ra, rb, rc], []⟩ := by
  have hnew : new [a, b, c] (.search ⟨query, [], false⟩) limits =
      ⟨[], [plannedSearch a ⟨query, [], false⟩, plannedSearch b ⟨query, [], false⟩,
        plannedSearch c ⟨query, [], false⟩], [], .empty, 4, false, false, 0, []⟩ := by
    rw [new, planSources, hplan]
    simp [hlimits]
  -- the first poll starts the sources, and every poll takes the record of one of them
  have hemitted : emitted (runSourceOperation limits) [[promptly], [promptly], [promptly]]
      ⟨[], [plannedSearch a ⟨query, [], false⟩, plannedSearch b ⟨query, [], false⟩,
        plannedSearch c ⟨query, [], false⟩], [], .empty, 4, false, false, 0, []⟩ =
        [.record ra, .record rb, .record rc] := by
    simp [hfirst, hsecond, hthird, ha, hb, hc, promptly, emitted, run, pollNext, pollRound,
      pollAvailableEvent, nextInitialEvent, nextInitialEvent.go, pollOrderedSourceEvent,
      pollOrderedSourceEvent.go, startReadySources, startReadySource, pollWorkers,
      RunningSource.pollFuture, pollCurrentSource, normalizeCursor, consumeSourceEvent, mapEvent,
      advanceCursor]
    rfl
  rw [collected, hnew, hemitted]
  rfl

end SearchDriver

end Comsat
