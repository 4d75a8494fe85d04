import Comsat.Engine.Collected
import Comsat.Engine.DedupeExact
import Comsat.Engine.Provenance
import Comsat.Engine.Selection
import Comsat.Store.PayloadContent

set_option relaxedAutoImplicit false
set_option autoImplicit false

/-!
# Whose records a source sends

The engine attributes the records of an invocation to the source that was invoked, and keeps the
source that each of them names. It does not compare the two, so it is up to the tools to name their
own source.

## Main definitions

* `ToolRun.Gives` — what a tool streams or returns.
* `GivenBy` — a valid record that a tool of a source gives.
* `SourceCatalog.NamesOwn` — every tool gives records of its own source only.

## Main results

* `source_attribution` — where emitted records, dropped records and stored rows come from.
* `source_attribution_foreign` — a source may send a record that names another one.
-/

namespace Comsat

/-! ## What tools give -/

/-- A tool gives a value: it streams it, or returns it, as such or as an item of an array. -/
def ToolRun.Gives (run : ToolRun) (value : Json) : Prop := value ∈ run.values ∨ run.outcome = .ok value

section

variable [ExternalParsers]

/-- A tool of the source gives the record. -/
def GivenBy (catalog : SourceCatalog) (source : SourceId) (record : Record) : Prop :=
  ∃ registered ∈ catalog.sources, registered.id = source ∧ ∃ tool arguments value,
    (registered.catalog tool arguments).Gives value ∧ validRecord value = some record

/-- Every tool gives records of its own source only. -/
def SourceCatalog.NamesOwn (catalog : SourceCatalog) : Prop :=
  ∀ source record, GivenBy catalog source record → record.source = source

/-- A worker sends records that the tool of its source gives. -/
lemma given_of_mem_runSourceOperation {limits : EngineLimits} {planned : PlannedSource}
    {source : SourceId} {record : Record}
    (h : .record source record ∈ runSourceOperation limits planned) :
    source = planned.source.id ∧ ∃ tool arguments value,
      (planned.source.catalog tool arguments).Gives value ∧ validRecord value = some record := by
  cases htool : planned.source.descriptor.toolName planned.operation with
  | none =>
    rw [runSourceOperation, htool] at h
    cases h
  | some tool =>
    set run := planned.source.catalog tool planned.input.arguments with hrun
    -- the records of the longest prefix that is counted within the budgets, and then failures
    obtain ⟨good, failure, hgood, hevents⟩ : ∃ good, ∃ failure : Option EngineDiagnostic,
        good <+: run.values ∧ runSourceOperation limits planned =
          recordEvents planned.source.id (recordsOf good) ++
            (failure.map WorkerEvent.failed).toList := by
      rw [runSourceOperation_eq htool, ← hrun]
      obtain ⟨good, hgood⟩ := exists_counted_prefix limits run.values
      obtain ⟨rest, hrest⟩ := hgood.isPrefix
      cases rest with
      | nil =>
        rw [List.append_nil] at hrest
        obtain rfl := hrest
        obtain ⟨failure, -, hevents⟩ :=
          toolEvents_whole planned.source.id hgood.holds.1 hgood.holds.2
        exact ⟨run.values, failure, hgood.isPrefix, hevents⟩
      | cons next rest =>
        obtain ⟨diagnostic, hevents, -⟩ := toolEvents_stops planned.source.id hrest.symm
          hgood.holds.1 hgood.holds.2 (hgood.not_next hrest.symm)
        exact ⟨good, some diagnostic, hgood.isPrefix, hevents⟩
    rw [hevents, List.mem_append] at h
    rcases h with h | h
    · obtain ⟨sent, hsent, heq⟩ := List.mem_map.mp h
      cases heq
      obtain ⟨value, hvalue, hrecord⟩ := List.mem_filterMap.mp hsent
      exact ⟨rfl, tool, _, value, .inl (hgood.subset hvalue), hrecord⟩
    · cases failure <;> simp at h

omit [ExternalParsers] in
/-- The sources of a plan are registered. -/
lemma mem_of_mem_planSources {catalog : SourceCatalog} {plan : StreamPlan} {planned : PlannedSource}
    (h : planned ∈ (planSources catalog.sources plan).1) : planned.source ∈ catalog.sources := by
  cases plan with
  | search request => exact (SourceCatalog.eq_plannedSearch_of_mem h).1
  | follow target =>
    rw [planSources, planFollow] at h
    split at h
    · cases h
    · rename_i source hsource
      split at h
      · rw [List.mem_singleton.mp h]
        exact (sourcesById_eq_some hsource).1
      · cases h

/-- The events of a run are records that tools give, in the name of the source of the tool. -/
lemma given_of_mem_handled {catalog : SourceCatalog} {limits : EngineLimits} {plan : StreamPlan}
    {polls : List (List Round)} {source : SourceId} {record : Record}
    (h : .record source record ∈ ((SearchDriver.new catalog.sources plan limits).run
      (runSourceOperation limits) polls).2.handled) : GivenBy catalog source record := by
  rcases (SearchDriver.handled_run catalog.sources plan limits (runSourceOperation limits)
    polls).1 _ h with ⟨planned, hplanned, hsent⟩ | ⟨diagnostic, heq⟩
  · obtain ⟨rfl, tool, arguments, value, hgives, hvalid⟩ := given_of_mem_runSourceOperation hsent
    exact ⟨planned.source, mem_of_mem_planSources hplanned, rfl, tool, arguments, value, hgives,
      hvalid⟩
  · cases heq

/-- A fetched record is one that a tool of the source of the target gives. -/
lemma given_of_fetch {catalog : SourceCatalog} {limits : EngineLimits}
    {decodeError : Json → String} {target : Target} {record : Record}
    (h : fetch limits decodeError catalog target = .ok record) :
    GivenBy catalog target.source record := by
  obtain ⟨source, tool, data, hsource, -, houtcome, hdecoded, hvalid, -⟩ := fetch_ok h
  rw [SourceCatalog.source] at hsource
  have hid : source.id = target.source := by simpa using List.find?_some hsource
  refine ⟨source, List.mem_of_find?_eq_some hsource, hid, tool, _, data, .inr houtcome, ?_⟩
  simp [validRecord, hdecoded, hvalid]

end

/-! ## What is emitted -/

/-- An emitted record is that of an event. -/
lemma mem_of_mem_emissions {dedupe : DedupeSet} {events : List WorkerEvent} {record : Record}
    (h : .record record ∈ emissions dedupe events) : ∃ source, .record source record ∈ events := by
  induction events generalizing dedupe with
  | nil => cases h
  | cons event events ih =>
    cases event with
    | failed diagnostic =>
      rcases List.mem_cons.mp h with heq | h
      · cases heq
      · obtain ⟨source, hsource⟩ := ih h
        exact ⟨source, List.mem_cons_of_mem _ hsource⟩
    | record source sent =>
      rcases List.mem_append.mp h with h | h
      · split at h
        · obtain rfl : record = sent := by simpa using h
          exact ⟨source, List.mem_cons_self ..⟩
        · cases h
      · obtain ⟨source, hsource⟩ := ih h
        exact ⟨source, List.mem_cons_of_mem _ hsource⟩

/-- The records that a run emits are valid. -/
lemma validate_of_mem_emitted [ExternalParsers] {catalog : SourceCatalog} {limits : EngineLimits} {plan : StreamPlan}
    {polls : List (List Round)} {record : Record}
    (h : .record record ∈ (SearchDriver.new catalog.sources plan limits).emitted
      (runSourceOperation limits) polls) : record.validate = .ok () := by
  rw [(SearchDriver.handled_run catalog.sources plan limits (runSourceOperation limits) polls).2]
    at h
  obtain ⟨source, hsource⟩ := mem_of_mem_emissions h
  obtain ⟨-, -, -, -, -, value, -, hvalid⟩ := given_of_mem_handled hsource
  rw [validRecord] at hvalid
  split at hvalid
  · split at hvalid
    · next hok =>
      obtain rfl := Option.some.inj hvalid
      exact hok
    · cases hvalid
  · cases hvalid

/-- A record that is dropped is alike to one that was emitted before it. -/
lemma alike_of_dropped {before : List WorkerEvent} {source : SourceId} {record : Record}
    (h : emissions (seenAfter .empty before) [.record source record] = []) :
    ∃ kept, .record kept ∈ emissions .empty before ∧ kept.Alike record := by
  rcases emitted_or_duplicate before [] source record with ⟨later, hlater⟩ | ⟨kept, hkept, hkeys⟩
  · rw [emissions_append, h, List.append_nil] at hlater
    exact absurd (congrArg List.length hlater) (by simp)
  · exact ⟨kept, hkept, sharesKey_iff.mp hkeys⟩

/-! ## What is stored -/

/-- **Touched rows**: on a well-formed database an operation touches only the rows of `records` that
have the identity of a record that it completes a run with. -/
lemma Adapter.filter_records_step [ExternalParsers] (adapter : Adapter) {db : Db}
    (hdb : db.WellFormed) (op : StoreOp) {q : RecordRow → Bool}
    (hkey : ∀ a b : RecordRow, a.key = b.key → q a = q b)
    (hq : ∀ request, op = .completeWatchRun request → ∀ record ∈ request.records,
      ∀ row : RecordRow, row.key = (request.tenantId, record.identity) → q row = false) :
    (adapter.step db op).1.records.filter q = db.records.filter q := by
  have heffect := adapter.step_effect hdb op
  generalize adapter.step db op = result at heffect
  cases heffect with
  | completed request hvalid hcan => exact adapter.filter_recordsAfter hkey (hq _ rfl) _
  | _ => rfl

/-! ## Attribution -/

/-- **Source attribution.** Every record that a search or follow takes for a source, and every record
fetched from it, is one that a tool of this source gives. If every tool gives records of its own
source only, then each of them names the source it was taken for; a record is dropped only because
of one emitted before it, which was taken for another source only if it has the same URL; and an
operation whose records were emitted touches only stored rows with the identity of a record that was
taken for the source of the row.

**Proof sketch.** The driver takes what the workers send, and a worker sends what its tool gives.
Records that are alike name one source unless they have one URL. -/
theorem source_attribution [ExternalParsers] (catalog : SourceCatalog) (limits : EngineLimits)
    (plan : StreamPlan) (polls : List (List Round)) :
    let driver := SearchDriver.new catalog.sources plan limits
    let handled := (driver.run (runSourceOperation limits) polls).2.handled
    let emitted := driver.emitted (runSourceOperation limits) polls
    emitted = emissions .empty handled ∧
      (∀ source record, .record source record ∈ handled → GivenBy catalog source record) ∧
      (∀ decodeError target record, fetch limits decodeError catalog target = .ok record →
        GivenBy catalog target.source record) ∧
      (catalog.NamesOwn →
        (∀ source record, .record source record ∈ handled → record.source = source) ∧
        (∀ decodeError target record, fetch limits decodeError catalog target = .ok record →
          record.source = target.source) ∧
        (∀ before source record after, handled = before ++ .record source record :: after →
          emissions (seenAfter .empty before) [.record source record] = [] →
            ∃ other kept, .record other kept ∈ before ∧ .record kept ∈ emitted ∧
              kept.Alike record ∧ (other ≠ source → kept.url = record.url)) ∧
        ∀ (adapter : Adapter) (ops : List StoreOp) (op : StoreOp),
          (∀ request, op = .completeWatchRun request →
            ∀ record ∈ request.records, .record record ∈ emitted) →
          ∀ row, ¬ (row ∈ (adapter.store.run ops).records ↔
              row ∈ (adapter.step (adapter.store.run ops) op).1.records) →
            ∃ record, .record row.record.source record ∈ handled ∧
              row.key = (op.tenantId, record.identity)) := by
  intro driver handled emitted
  have hemitted : emitted = emissions .empty handled :=
    (SearchDriver.handled_run catalog.sources plan limits (runSourceOperation limits) polls).2
  have hgiven : ∀ source record, .record source record ∈ handled →
      GivenBy catalog source record := fun _ _ => given_of_mem_handled
  refine ⟨hemitted, hgiven, fun _ _ _ => given_of_fetch, fun hown => ?_⟩
  have hnames : ∀ source record, .record source record ∈ handled → record.source = source :=
    fun source record h => hown source record (hgiven source record h)
  refine ⟨hnames, fun _ _ _ h => hown _ _ (given_of_fetch h), ?_, ?_⟩
  · intro before source record after hsplit hdropped
    obtain ⟨kept, hkept, halike⟩ := alike_of_dropped hdropped
    obtain ⟨other, hother⟩ := mem_of_mem_emissions hkept
    refine ⟨other, kept, hother, ?_, halike, fun hne => ?_⟩
    · rw [hemitted, hsplit, emissions_append]
      exact List.mem_append_left _ hkept
    · have hsources : kept.source ≠ record.source := by
        rw [hnames other kept (by rw [hsplit]; exact List.mem_append_left _ hother),
          hnames source record (by rw [hsplit]; exact List.mem_append_right _ (.head _))]
        exact hne
      exact (halike.resolve_left fun h => hsources h.1).resolve_right fun h => hsources h.1
  · intro adapter ops op hrecords row hrow
    by_contra hnone
    refine hrow ?_
    -- the rows without the identity of a record of the operation stay
    have hfilter := adapter.filter_records_step (adapter.wellFormed_run ops) op
      (q := fun other => decide (other.key = row.key)) (fun a b h => by rw [h]) ?_
    · have hmem := congrArg (row ∈ ·) hfilter
      simpa using hmem.symm
    · intro request hop record hrecord other hkey
      refine decide_eq_false fun hsame => hnone ?_
      have hid : row.key = (request.tenantId, record.identity) := hsame.symm.trans hkey
      have hsource : row.record.source = record.source := by
        have h := congrArg (fun key => key.2.1) hid
        exact h
      have hsent := hrecords request hop record hrecord
      rw [hemitted] at hsent
      obtain ⟨source, hsource'⟩ := mem_of_mem_emissions hsent
      refine ⟨record, ?_, by rw [hop]; exact hid⟩
      rw [hsource, hnames source record hsource']
      exact hsource'

/-! ## A source that names itself, or another one -/

/-- A source whose search returns a story of the source `hn`. -/
def newsSource (id : SourceId) : CatalogSource :=
  ⟨.new id "" ⟨true, false, false⟩, fun _ _ => ⟨[], .ok (titled "").toJson⟩⟩

/-- The catalog of the source. -/
def newsCatalog (id : SourceId) : SourceCatalog := ⟨[newsSource id], List.nodup_singleton _⟩

/-- A source called `hn` names itself. -/
lemma namesOwn_newsCatalog :
    letI : ExternalParsers := .ofHost "example.com"
    (newsCatalog ⟨"hn", by decide⟩).NamesOwn := by
  let _ : ExternalParsers := .ofHost "example.com"
  rintro source record ⟨registered, hregistered, rfl, tool, arguments, value, hgives, hvalid⟩
  obtain rfl := List.mem_singleton.mp hregistered
  have hvalue : value = (titled "").toJson := by
    rcases hgives with hgives | hgives
    · exact List.mem_singleton.mp hgives
    · exact (ToolCallOutcome.ok.inj hgives).symm
  rw [hvalue, validRecord, Record.fromValue_toJson] at hvalid
  have hrecord : titled "" = record := Option.some.inj hvalid
  rw [← hrecord]
  rfl

/-- The attribution of the source that names itself. -/
theorem source_attribution_own :
    letI : ExternalParsers := .ofHost "example.com"
    (newsCatalog ⟨"hn", by decide⟩).NamesOwn ∧
      ∀ source record, .record source record ∈
        ((SearchDriver.new (newsCatalog ⟨"hn", by decide⟩).sources
          (.search ⟨⟨"q", none, none, none⟩, [], false⟩) .default).run
            (runSourceOperation .default) [[SearchDriver.promptly]]).2.handled →
          record.source = source := by
  let _ : ExternalParsers := .ofHost "example.com"
  exact ⟨namesOwn_newsCatalog, ((source_attribution (newsCatalog ⟨"hn", by decide⟩) .default
    (.search ⟨⟨"q", none, none, none⟩, [], false⟩) [[SearchDriver.promptly]]).2.2.2
      namesOwn_newsCatalog).1⟩

/-- **A foreign record**: the only source of the catalog is called `a`, and the search emits a record
of the source `hn`. -/
theorem source_attribution_foreign :
    letI : ExternalParsers := .ofHost "example.com"
    .record (titled "") ∈ (SearchDriver.new (newsCatalog ⟨"a", by decide⟩).sources
        (.search ⟨⟨"q", none, none, none⟩, [], false⟩) .default).emitted
          (runSourceOperation .default) [[SearchDriver.promptly]] ∧
      ∀ source ∈ (newsCatalog ⟨"a", by decide⟩).sources, source.id ≠ (titled "").source := by
  let _ : ExternalParsers := .ofHost "example.com"
  have hcollected : SearchDriver.collected (newsCatalog ⟨"a", by decide⟩)
      ⟨⟨"q", none, none, none⟩, [], false⟩ .default [[SearchDriver.promptly]] =
        ⟨[titled ""], []⟩ :=
    SearchDriver.collected_single rfl (SearchDriver.runSourceOperation_of_ok rfl rfl (by decide)
      ⟨show 1 ≤ 1000 by decide, by decide +kernel⟩)
  have hrecords := congrArg SearchOutcome.records hcollected
  rw [SearchDriver.collected, SearchOutcome.records_collect] at hrecords
  refine ⟨?_, by decide⟩
  have hmem : titled "" ∈ [titled ""] := List.mem_singleton_self _
  rw [← show _ = [titled ""] from hrecords, List.mem_filterMap] at hmem
  obtain ⟨event, hevent, hrecord⟩ := hmem
  cases event with
  | sourceFailed diagnostic => cases hrecord
  | record record =>
    obtain rfl : record = titled "" := Option.some.inj hrecord
    exact hevent

end Comsat
