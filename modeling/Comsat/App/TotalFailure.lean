import Comsat.App.RecordStream
import Comsat.Engine.Canonical

set_option relaxedAutoImplicit false
set_option autoImplicit false

/-!
# When a search fails as a whole

A search that is not strict fails when all selected sources have failed without a record. The
stream counts the failed sources of the diagnostics it sees and compares the count with the number
of distinct selected sources.

## Main definitions

* `selectedSourceCount` — the number the stream compares with.
* `sourceScript` — what the worker of a selected source sends.
* `SourceFails` — a selected source fails: it is not registered, or its worker reports a failure.

## Main results

* `eq_nil_of_all_failed` — once all selected sources have failed nothing is left to be handled.
* `SearchDriver.total_failure_law` — the stream forwards every event and ends with an error exactly
  when something was selected, no record was emitted and every selected source failed.
-/

namespace Comsat

/-- The number of distinct sources that a search selects. -/
def selectedSourceCount (catalog : SourceCatalog) (sources : List SourceId) : ℕ :=
  if sources.isEmpty then catalog.sources.length else sources.toFinset.card

/-- The number the stream compares with is the number of the selected sources. -/
lemma selectedSourceCount_eq (catalog : SourceCatalog) (sources : List SourceId) :
    selectedSourceCount catalog sources = (catalog.selectedSet sources).card := by
  by_cases h : sources = []
  · rw [selectedSourceCount, SourceCatalog.selectedSet, if_pos (by simp [h]), if_pos h,
      SourceCatalog.registered, List.toFinset_card_of_nodup catalog.unique, List.length_map]
  · rw [selectedSourceCount, SourceCatalog.selectedSet, if_neg (by simp [h]), if_neg h]

/-! ## Nothing is left once all sources have failed -/

section

variable {script : ∀ source, SourceScript source} {registered searchable selected : Finset SourceId}

/-- A failure is the last thing the scripts report. -/
def FailsLast (script : ∀ source, SourceScript source) : Prop :=
  ∀ source before diagnostic after,
    (script source).events = before ++ .failed diagnostic :: after → after = []

/-- Once all selected sources have failed nothing is left to be handled.

**Proof sketch.** A further event would be about a selected source, and stand after the failure of
this source, which is its last event. -/
lemma eq_nil_of_all_failed (hsubset : searchable ⊆ registered) {maxActive : ℕ}
    (hactive : 0 < maxActive) (hlast : FailsLast script) {taken later : List WorkerEvent}
    (horder : canonicalOrder script registered searchable selected maxActive = taken ++ later)
    (hfailed : ∀ source ∈ selected, ∃ diagnostic, .failed diagnostic ∈ taken ∧
      diagnostic.source = source) : later = [] := by
  have hconsumed : Consumed script registered searchable selected _ _ :=
    canonicalOrder_consumed hsubset hactive
  cases later with
  | nil => rfl
  | cons event later =>
    have hmem := hconsumed.only event (by simp [horder])
    have hselected : event.source ∈ selected := by
      obtain h | h := Finset.mem_union.mp hmem
      · exact (Finset.mem_inter.mp h).1
      · exact (Finset.mem_sdiff.mp h).1
    obtain ⟨diagnostic, hdiagnostic, hsource⟩ := hfailed event.source hselected
    obtain ⟨before, after, rfl⟩ := List.append_of_mem hdiagnostic
    -- the events about the source: its failure, and the further event after it
    have hfilter : (canonicalOrder script registered searchable selected maxActive).filter
        (fun other => other.source = event.source) =
        before.filter (fun other => other.source = event.source) ++ .failed diagnostic ::
          (after.filter (fun other => other.source = event.source) ++ event ::
            later.filter fun other => other.source = event.source) := by
      rw [horder]
      simp [WorkerEvent.source, hsource]
    obtain hin | hmissing := Finset.mem_union.mp hmem
    · have hnil := hlast _ _ _ _ ((hconsumed.source _ hin).symm.trans hfilter)
      simp at hnil
    · have hlength := congrArg List.length ((hconsumed.missing _ hmissing).symm.trans hfilter)
      simp only [List.length_append, List.length_cons, List.length_nil] at hlength
      omega

end

/-! ## The workers of a search -/

section

variable [ExternalParsers] (catalog : SourceCatalog) (request : SearchRequest)
  (limits : EngineLimits)

/-- The events of a worker are about its source. -/
lemma runSourceOperation_own (planned : PlannedSource) :
    ∀ event ∈ runSourceOperation limits planned, event.source = planned.source.id := by
  intro event hevent
  obtain ⟨accepted, state, failure, -, howner, hrun⟩ := runSourceOperation_shape limits planned
  rw [hrun] at hevent
  obtain hrecord | hfailed := List.mem_append.mp hevent
  · obtain ⟨entry, -, rfl⟩ := List.mem_map.mp hrecord
    rfl
  · obtain ⟨diagnostic, hdiagnostic, rfl⟩ := Option.mem_map.mp (Option.mem_toList.mp hfailed)
    exact howner diagnostic hdiagnostic

/-- What the worker of a selected source sends. -/
def sourceScript (id : SourceId) : SourceScript id :=
  match h : sourcesById catalog.sources id with
  | some source =>
    ⟨runSourceOperation limits (plannedSearch source request), fun event hevent =>
      (runSourceOperation_own limits _ event hevent).trans (sourcesById_eq_some h).2⟩
  | none => ⟨[], by simp⟩

/-- The script of a registered source is what its worker sends. -/
lemma sourceScript_events {id : SourceId} {source : CatalogSource}
    (h : sourcesById catalog.sources id = some source) :
    (sourceScript catalog request limits id).events =
      runSourceOperation limits (plannedSearch source request) := by
  rw [sourceScript]
  split
  · rename_i other hother
    rw [h] at hother
    cases hother
    rfl
  · rename_i hnone
    rw [h] at hnone
    cases hnone

/-- The workers of a search send the scripts of their sources. -/
lemma runSourceOperation_of_planned {planned : PlannedSource}
    (h : planned ∈ (planSearch catalog.sources request).1) :
    runSourceOperation limits planned =
      (sourceScript catalog request limits planned.source.id).events := by
  obtain ⟨source, hsource, rfl⟩ := List.mem_map.mp h
  obtain ⟨id, -, hfound⟩ := List.mem_filterMap.mp (List.mem_of_mem_filter hsource)
  have hid : sourcesById catalog.sources (plannedSearch source request).source.id = some source :=
    catalog.sourcesById_id (sourcesById_eq_some hfound).1
  rw [sourceScript_events catalog request limits hid]

/-- A script is some valid records and then at most one failure. -/
lemma sourceScript_shape (id : SourceId) :
    ∃ records : List Record, ∃ failure : Option EngineDiagnostic,
      (∀ record ∈ records, record.validate = .ok ()) ∧
      (sourceScript catalog request limits id).events =
        records.map (.record id) ++ (failure.map WorkerEvent.failed).toList := by
  cases h : sourcesById catalog.sources id with
  | none =>
    refine ⟨[], none, by simp, ?_⟩
    rw [sourceScript]
    split
    · rename_i source hsource
      rw [h] at hsource
      cases hsource
    · rfl
  | some source =>
    obtain ⟨accepted, state, failure, haccepts, -, hrun⟩ :=
      runSourceOperation_shape limits (plannedSearch source request)
    have hid : (plannedSearch source request).source.id = id := (sourcesById_eq_some h).2
    refine ⟨accepted.map Prod.snd, failure, ?_, ?_⟩
    · intro record hrecord
      obtain ⟨entry, hentry, rfl⟩ := List.mem_map.mp hrecord
      exact (haccepts.decoded entry hentry).2
    · rw [sourceScript_events catalog request limits h, hrun, hid, acceptedEvents, List.map_map]
      rfl

/-- The workers of a search report failures last. -/
lemma failsLast_sourceScript : FailsLast (sourceScript catalog request limits) := by
  intro id before diagnostic after h
  obtain ⟨records, failure, -, hshape⟩ := sourceScript_shape catalog request limits id
  rw [hshape] at h
  clear hshape
  induction records generalizing before with
  | nil =>
    have hlength := congrArg List.length h
    have hle : (failure.map WorkerEvent.failed).toList.length ≤ 1 := by cases failure <;> simp
    simp only [List.map_nil, List.nil_append, List.length_append, List.length_cons] at hlength
    exact List.length_eq_zero_iff.mp (by omega)
  | cons record records ih =>
    cases before with
    | nil => simp at h
    | cons event before => exact ih before (List.cons.inj h).2

/-! ## The law -/

/-- A selected source fails: it is not registered, or its worker reports a failure. -/
def SourceFails (id : SourceId) : Prop :=
  id ∉ catalog.registered ∨ id ∈ catalog.searchable ∧
    ∃ diagnostic, .failed diagnostic ∈ (sourceScript catalog request limits id).events

/-- Everything the workers of a search send, in the canonical order. -/
def searchOrder : List WorkerEvent :=
  canonicalOrder (sourceScript catalog request limits) catalog.registered catalog.searchable
    (catalog.selectedSet request.sources) (max limits.maxActiveSources 1)

/-- The canonical order of a search consumes every selected source. -/
lemma searchOrder_consumed :
    Consumed (sourceScript catalog request limits) catalog.registered catalog.searchable
      (catalog.selectedSet request.sources) (searchOrder catalog request limits)
      (emissions .empty (searchOrder catalog request limits)) :=
  canonicalOrder_consumed catalog.searchable_subset (lt_max_of_lt_right one_pos)

/-- What is handled is about selected sources. -/
lemma source_mem_selectedSet {event : WorkerEvent}
    (h : event ∈ searchOrder catalog request limits) :
    event.source ∈ catalog.selectedSet request.sources := by
  obtain hin | hmissing :=
    Finset.mem_union.mp ((searchOrder_consumed catalog request limits).only event h)
  · exact (Finset.mem_inter.mp hin).1
  · exact (Finset.mem_sdiff.mp hmissing).1

/-- A selected source fails exactly when one of the handled events is its failure. -/
lemma sourceFails_iff {id : SourceId} (hselected : id ∈ catalog.selectedSet request.sources) :
    SourceFails catalog request limits id ↔
      ∃ diagnostic, .failed diagnostic ∈ searchOrder catalog request limits ∧
        diagnostic.source = id := by
  have hconsumed := searchOrder_consumed catalog request limits
  constructor
  · rintro (hmissing | ⟨hsearchable, diagnostic, hmem⟩)
    · exact ⟨_, hconsumed.mem_of_missing (Finset.mem_sdiff.mpr ⟨hselected, hmissing⟩), rfl⟩
    · exact ⟨diagnostic,
        hconsumed.mem_of_script (Finset.mem_inter.mpr ⟨hselected, hsearchable⟩) hmem,
        (sourceScript catalog request limits id).own _ hmem⟩
  · rintro ⟨diagnostic, hmem, rfl⟩
    obtain hin | hmissing := Finset.mem_union.mp (hconsumed.only _ hmem)
    · exact .inr ⟨(Finset.mem_inter.mp hin).2, diagnostic, hconsumed.mem_script hmem hin⟩
    · exact .inl (Finset.mem_sdiff.mp hmissing).2

variable {catalog request limits} {emitted : List EngineEvent}

/-- The records a search emits are valid. -/
lemma validate_of_emitted (h : emitted <+: emissions .empty (searchOrder catalog request limits))
    {record : Record} (hrecord : .record record ∈ emitted) : record.validate = .ok () := by
  obtain ⟨id, hmem⟩ := exists_of_record_mem_emissions (h.subset hrecord)
  have hconsumed := searchOrder_consumed catalog request limits
  obtain hin | hmissing := Finset.mem_union.mp (hconsumed.only _ hmem)
  · obtain ⟨records, failure, hvalid, hshape⟩ := sourceScript_shape catalog request limits id
    have hscript := hconsumed.mem_script hmem hin
    rw [WorkerEvent.source, hshape] at hscript
    obtain hin | hfailed := List.mem_append.mp hscript
    · obtain ⟨other, hother, heq⟩ := List.mem_map.mp hin
      cases heq
      exact hvalid record hother
    · cases failure <;> simp at hfailed
  · cases hconsumed.eq_of_missing hmem hmissing

/-- The stream has failed exactly when something was selected, no record was emitted and all
selected sources have failed. -/
lemma terminal_iff (h : emitted <+: emissions .empty (searchOrder catalog request limits)) :
    (emitted.foldl RecordStreamState.observe .start).terminal false
        (selectedSourceCount catalog request.sources) = true ↔
      (catalog.selectedSet request.sources).Nonempty ∧ (∀ record, .record record ∉ emitted) ∧
      ∀ id ∈ catalog.selectedSet request.sources,
        ∃ diagnostic, .sourceFailed diagnostic ∈ emitted ∧ diagnostic.source = id := by
  obtain ⟨hsaw, hfailed, -⟩ := RecordStreamState.foldl_observe emitted
  have hsubset : (emitted.foldl RecordStreamState.observe .start).failedSources ⊆
      catalog.selectedSet request.sources := by
    intro id hid
    obtain ⟨diagnostic, hmem, rfl⟩ := (hfailed id).mp hid
    exact source_mem_selectedSet catalog request limits
      (sourceFailed_mem_emissions.mp (h.subset hmem))
  rw [RecordStreamState.terminal, selectedSourceCount_eq]
  simp only [Bool.false_or, Bool.and_eq_true, Bool.not_eq_true', decide_eq_true_eq,
    Finset.card_pos]
  constructor
  · rintro ⟨hnone, hnonempty, hcount⟩
    have hall := Finset.eq_of_subset_of_card_le hsubset hcount
    refine ⟨hnonempty, fun record hmem => ?_, fun id hid => (hfailed id).mp (hall ▸ hid)⟩
    simp [hsaw.mpr ⟨record, hmem⟩] at hnone
  · rintro ⟨hnonempty, hnone, hall⟩
    refine ⟨?_, hnonempty, Finset.card_le_card fun id hid => (hfailed id).mpr (hall id hid)⟩
    rw [← Bool.not_eq_true, hsaw]
    rintro ⟨record, hmem⟩
    exact hnone record hmem

/-- A stream that has failed has emitted everything there is to emit. -/
lemma eq_of_terminal (h : emitted <+: emissions .empty (searchOrder catalog request limits))
    (hterminal : (emitted.foldl RecordStreamState.observe .start).terminal false
      (selectedSourceCount catalog request.sources) = true) :
    emitted = emissions .empty (searchOrder catalog request limits) := by
  obtain ⟨-, -, hfailed⟩ := (terminal_iff h).mp hterminal
  obtain ⟨later, hlater⟩ := h
  obtain ⟨taken, rest, horder, hemitted, hrest⟩ := exists_split_of_emissions hlater.symm
  have hnil := eq_nil_of_all_failed catalog.searchable_subset (lt_max_of_lt_right one_pos)
    (failsLast_sourceScript catalog request limits) horder fun id hid => by
      obtain ⟨diagnostic, hmem, hsource⟩ := hfailed id hid
      exact ⟨diagnostic, sourceFailed_mem_emissions.mp (hemitted ▸ hmem), hsource⟩
  rw [hnil] at hrest
  rw [← hlater, ← hrest, emissions, List.append_nil]

/-- The items of a part of what a search emits: a chunk for every event, and the error item if the
stream has failed. -/
lemma searchRecordStream_of_part
    (h : emitted <+: emissions .empty (searchOrder catalog request limits)) :
    searchRecordStream false (selectedSourceCount catalog request.sources) emitted =
      emitted.map chunkOf ++ failureItem false (selectedSourceCount catalog request.sources)
        (emitted.foldl RecordStreamState.observe .start) := by
  rw [searchRecordStream_eq (fun record hrecord => validate_of_emitted h hrecord)]
  · split
    · rename_i hempty
      rw [List.isEmpty_iff.mp hempty]
      have hgoing : RecordStreamState.start.terminal false
          (selectedSourceCount catalog request.sources) = false := by
        simp only [RecordStreamState.terminal, RecordStreamState.start, Finset.card_empty]
        cases selectedSourceCount catalog request.sources <;> rfl
      simp [failureItem, hgoing]
    · rfl
  · intro before next after hsplit hafter
    by_contra hfailed
    rw [Bool.not_eq_false] at hfailed
    have hfirst : before ++ [next] <+: emitted := ⟨after, by simp [hsplit]⟩
    have hall := eq_of_terminal (hfirst.trans h) hfailed
    have hle := h.length_le
    have hlength := congrArg List.length hsplit
    have hpos := List.length_pos_iff.mpr hafter
    rw [← hall] at hle
    simp only [List.length_append, List.length_cons, List.length_nil] at hlength hle
    omega

end

namespace SearchDriver

section

variable [ExternalParsers] (catalog : SourceCatalog) (request : SearchRequest)
  (limits : EngineLimits)

/-- **When a search fails as a whole.** For every search that is not strict, whatever the tools of
its sources do and whenever their events become available: the record stream has one chunk for
every emitted event and then at most one error item; once it has come to its end, it has this item
exactly when something was selected, no record was emitted and every selected source failed;
after the item the engine emits nothing more; and no record is refused when it is written.

**Proof sketch.** The stream can only fail once all selected sources have failed
(`terminal_iff`), and then nothing is left to be emitted (`eq_of_terminal`), so it cannot fail
before its last event. -/
theorem total_failure_law (hstrict : request.strict = false) (polls : List (List Round)) :
    let driver := new catalog.sources (.search request) limits
    let worker := runSourceOperation limits
    let selected := catalog.selectedSet request.sources
    let emitted := driver.emitted worker polls
    let items := searchRecordStream false (selectedSourceCount catalog request.sources) emitted
    (∃ error : Option StreamRecord,
      items = emitted.map chunkOf ++ error.toList ∧
      (∀ item ∈ error,
        item = sourceFailuresStreamError (emitted.filterMap EngineEvent.failure?) false) ∧
      (.ready none ∈ (driver.run worker polls).1 ∨ error.isSome →
        (error.isSome ↔ selected.Nonempty ∧ (∀ record, .record record ∉ emitted) ∧
          ∀ id ∈ selected, SourceFails catalog request limits id)) ∧
      (error.isSome → ∀ more, driver.emitted worker (polls ++ more) = emitted)) ∧
    ∀ record, .record record ∈ emitted → recordValue record = .ok record.toJson := by
  intro driver worker selected emitted items
  have hregular : driver.Regular worker := regular_new catalog request limits hstrict worker
  have hremaining : driver.remaining worker = searchOrder catalog request limits :=
    remaining_new catalog request limits (sourceScript catalog request limits) fun _ h =>
      runSourceOperation_of_planned catalog request limits h
  have hpart : ∀ polls, driver.emitted worker polls <+:
      emissions .empty (searchOrder catalog request limits) := by
    intro polls
    obtain ⟨taken, hrest, -, hout⟩ := (run_advances polls hregular).taken
    exact ⟨_, by rw [← hout, ← hrest, hremaining]; rfl⟩
  have hterminal := terminal_iff (hpart polls)
  have hitems : items = emitted.map chunkOf ++ _ := searchRecordStream_of_part (hpart polls)
  -- a source with a diagnostic has failed, and every failure is emitted by the end
  have hfails : ∀ id ∈ selected, (∃ diagnostic, .sourceFailed diagnostic ∈ emitted ∧
      diagnostic.source = id) → SourceFails catalog request limits id := by
    rintro id hid ⟨diagnostic, hmem, hsource⟩
    exact (sourceFails_iff catalog request limits hid).mpr
      ⟨diagnostic, sourceFailed_mem_emissions.mp ((hpart polls).subset hmem), hsource⟩
  have hended : .ready none ∈ (driver.run worker polls).1 → ∀ id ∈ selected,
      SourceFails catalog request limits id →
      ∃ diagnostic, .sourceFailed diagnostic ∈ emitted ∧ diagnostic.source = id := by
    intro hend id hid hfailed
    obtain ⟨diagnostic, hmem, hsource⟩ := (sourceFails_iff catalog request limits hid).mp hfailed
    have hemitted : emitted = emissions _ _ := (handled_of_ready_none polls hregular hend).2
    rw [hremaining] at hemitted
    exact ⟨diagnostic, by rw [hemitted]; exact sourceFailed_mem_emissions.mpr hmem, hsource⟩
  refine ⟨?_, fun record hrecord => ?_⟩
  · cases hfailed : (emitted.foldl RecordStreamState.observe .start).terminal false
        (selectedSourceCount catalog request.sources) with
    | false =>
      refine ⟨none, ?_, by simp, fun hend => ?_, by simp⟩
      · rw [hitems]
        simp [failureItem, hfailed]
      · have hready := hend.resolve_right (by simp)
        refine iff_of_false (by simp) fun ⟨hnonempty, hnone, hall⟩ => ?_
        have htrue := hterminal.mpr ⟨hnonempty, hnone, fun id hid => hended hready id hid (hall id hid)⟩
        exact Bool.false_ne_true (hfailed.symm.trans htrue)
    | true =>
      obtain ⟨hnonempty, hnone, hall⟩ := hterminal.mp hfailed
      refine ⟨some (sourceFailuresStreamError (emitted.filterMap EngineEvent.failure?) false),
        ?_, by simp, fun _ => ?_, fun _ more => ?_⟩
      · rw [hitems, failureItem, if_pos hfailed, (RecordStreamState.foldl_observe emitted).2.2]
        rfl
      · exact iff_of_true rfl ⟨hnonempty, hnone, fun id hid => hfails id hid (hall id hid)⟩
      · have hwhole : emitted = emissions .empty _ := eq_of_terminal (hpart polls) hfailed
        obtain ⟨rest, hmore⟩ : ∃ rest, driver.emitted worker (polls ++ more) = emitted ++ rest :=
          ⟨_, emitted_append polls more driver⟩
        have hle := (hpart (polls ++ more)).length_le
        rw [← hwhole, hmore, List.length_append] at hle
        rw [hmore, List.length_eq_zero_iff.mp (by omega : rest.length = 0), List.append_nil]
  · rw [recordValue, validate_of_emitted (hpart polls) hrecord]

end

/-- The law applies to a search of one unknown source, named twice: one diagnostic, and the
error. -/
theorem total_failure_law_unknown :
    letI : ExternalParsers := .ofHost "example.com"
    let request : SearchRequest :=
      ⟨⟨"q", none, none, none⟩, [⟨"x", by decide⟩, ⟨"x", by decide⟩], false⟩
    let emitted := (new [] (.search request) .default).emitted (runSourceOperation .default) [[]]
    emitted.length = 1 ∧
    (searchRecordStream false 1 emitted).length = 2 ∧
    ∃ error : Option StreamRecord,
      searchRecordStream false 1 emitted = emitted.map chunkOf ++ error.toList := by
  let _ : ExternalParsers := .ofHost "example.com"
  intro request emitted
  obtain ⟨⟨error, hitems, -⟩, -⟩ := total_failure_law ⟨[], by simp⟩ request .default rfl [[]]
  exact ⟨by decide, by decide +kernel, error, hitems⟩

end SearchDriver

end Comsat
