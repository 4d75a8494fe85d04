import Comsat.Engine.Plan

set_option relaxedAutoImplicit false
set_option autoImplicit false

/-!
# What becomes of the selected sources

A search plans the selected sources that can be searched, and reports the selected ones that are not
registered. A source that is registered and cannot be searched falls between the two.

## Main definitions

* `SourceCatalog.plannedIds`, `SourceCatalog.reportedIds` — what a search runs and what it reports
  beforehand.
* `SelectionAccounted` — every selected source is accounted for once, and nothing depends on the
  order of the catalog or of the selection.

## Main results

* `SourceCatalog.planSearch_congr` — a plan depends on what is registered and on what is selected.
* `selection_accounted_iff` — when every selected source is accounted for.
-/

namespace Comsat

namespace SourceCatalog

variable (catalog : SourceCatalog) (request : SearchRequest)

/-- The identifiers of the sources that a search runs, in order. -/
def plannedIds : List SourceId :=
  (planSearch catalog.sources request).1.map fun planned => planned.source.id

/-- The identifiers of the sources that a search reports beforehand, in order. -/
def reportedIds : List SourceId :=
  (planSearch catalog.sources request).2.1.map EngineDiagnostic.source

/-- The sources that are reported are the selected ones that are not registered. -/
lemma reportedIds_eq : catalog.reportedIds request =
    (catalog.selectedSet request.sources \ catalog.registered).sort := by
  have hsource : EngineDiagnostic.source ∘ sourceNotFound = id := rfl
  rw [reportedIds, planSearch_diagnostics, List.map_map, hsource, List.map_id]

/-- How often an identifier is planned. -/
lemma count_plannedIds (id : SourceId) : (catalog.plannedIds request).count id =
    if id ∈ catalog.selectedSet request.sources ∧ id ∈ catalog.searchable then 1 else 0 := by
  rw [plannedIds, planSearch_pending, (Finset.sort_nodup _ _).count]
  simp

/-- How often an identifier is reported. -/
lemma count_reportedIds (id : SourceId) : (catalog.reportedIds request).count id =
    if id ∈ catalog.selectedSet request.sources ∧ id ∉ catalog.registered then 1 else 0 := by
  rw [reportedIds_eq, (Finset.sort_nodup _ _).count]
  simp

variable {catalog request}

/-- What is planned is a search of a registered source for the query. -/
lemma eq_plannedSearch_of_mem {planned : PlannedSource}
    (h : planned ∈ (planSearch catalog.sources request).1) :
    planned.source ∈ catalog.sources ∧ planned = plannedSearch planned.source request := by
  obtain ⟨source, hsource, rfl⟩ := List.mem_map.mp h
  obtain ⟨id, -, hfound⟩ := List.mem_filterMap.mp (List.mem_of_mem_filter hsource)
  exact ⟨(sourcesById_eq_some hfound).1, rfl⟩

/-- The same sources in another order are found under the same identifiers. -/
lemma sourcesById_perm {other : SourceCatalog} (h : other.sources.Perm catalog.sources)
    (id : SourceId) : sourcesById other.sources id = sourcesById catalog.sources id := by
  cases hfound : sourcesById catalog.sources id with
  | none =>
    rw [sourcesById_eq_none] at hfound ⊢
    exact fun hmem => hfound ((h.map CatalogSource.id).mem_iff.mp hmem)
  | some source =>
    obtain ⟨hmem, rfl⟩ := sourcesById_eq_some hfound
    exact other.sourcesById_id (h.mem_iff.mpr hmem)

/-- **What a plan depends on**: the sources that are registered and the identifiers that are selected,
not their order nor how often they are selected.

**Proof sketch.** The selected identifiers are sorted without repetitions, and looked up among
sources with distinct identifiers. -/
theorem planSearch_congr {other : SourceCatalog} (hcatalog : other.sources.Perm catalog.sources)
    {selected : List SourceId} (hselected : ∀ id, id ∈ selected ↔ id ∈ request.sources) :
    planSearch other.sources { request with sources := selected } =
      planSearch catalog.sources request := by
  have hset : selected.toFinset = request.sources.toFinset := by
    ext id
    simpa using hselected id
  have hnil : selected = [] ↔ request.sources = [] := by
    simp only [List.eq_nil_iff_forall_not_mem, hselected]
  have hregistered : other.registered = catalog.registered := by
    ext id
    simpa [registered] using (hcatalog.map CatalogSource.id).mem_iff
  have hids : other.selectedSet selected = catalog.selectedSet request.sources := by
    simp only [selectedSet, hnil, hset, hregistered]
  have hfound : sourcesById other.sources = sourcesById catalog.sources :=
    funext (sourcesById_perm hcatalog)
  refine Prod.ext ?_ (Prod.ext ?_ rfl)
  · simp only [planSearch, selectedSourceIds_eq, hids, hfound]
    rfl
  · simp only [planSearch_diagnostics, hids, hregistered]

end SourceCatalog

/-- Every selected source is planned once or reported once, nothing else is, and nothing depends on
the order of the catalog, or on the order and the repetitions of the selection. -/
structure SelectionAccounted (catalog : SourceCatalog) (request : SearchRequest) : Prop where
  once : ∀ id ∈ catalog.selectedSet request.sources,
    (catalog.plannedIds request).count id + (catalog.reportedIds request).count id = 1
  planned : ∀ planned ∈ (planSearch catalog.sources request).1,
    planned.source ∈ catalog.sources ∧ planned = plannedSearch planned.source request ∧
      planned.source.id ∈ catalog.selectedSet request.sources
  reported : ∀ id ∈ catalog.reportedIds request, id ∈ catalog.selectedSet request.sources
  order : ∀ (other : SourceCatalog) (selected : List SourceId),
    other.sources.Perm catalog.sources → (∀ id, id ∈ selected ↔ id ∈ request.sources) →
      planSearch other.sources { request with sources := selected } =
        planSearch catalog.sources request

/-- **When every selected source is accounted for**: exactly when those that are registered can be
searched.

**Proof sketch.** A selected source is planned when it can be searched, and reported when it is not
registered; what can be searched is registered. -/
theorem selection_accounted_iff (catalog : SourceCatalog) (request : SearchRequest) :
    SelectionAccounted catalog request ↔
      ∀ id ∈ catalog.selectedSet request.sources, id ∈ catalog.registered →
        id ∈ catalog.searchable := by
  constructor
  · intro h id hselected hregistered
    have hcount := h.once id hselected
    rw [catalog.count_plannedIds, catalog.count_reportedIds] at hcount
    by_contra hsearchable
    simp [hregistered, hsearchable] at hcount
  · intro h
    refine ⟨fun id hselected => ?_, fun planned hplanned => ?_, fun id hid => ?_,
      fun other selected hcatalog hselected =>
        SourceCatalog.planSearch_congr hcatalog hselected⟩
    · rw [catalog.count_plannedIds, catalog.count_reportedIds]
      by_cases hregistered : id ∈ catalog.registered
      · simp [hselected, hregistered, h id hselected hregistered]
      · have hsearchable : id ∉ catalog.searchable :=
          fun hmem => hregistered (catalog.searchable_subset hmem)
        simp [hselected, hregistered, hsearchable]
    · obtain ⟨hmem, heq⟩ := SourceCatalog.eq_plannedSearch_of_mem hplanned
      have hid : planned.source.id ∈ catalog.plannedIds request :=
        List.mem_map_of_mem hplanned
      rw [SourceCatalog.plannedIds, catalog.planSearch_pending, Finset.mem_sort] at hid
      exact ⟨hmem, heq, (Finset.mem_inter.mp hid).1⟩
    · rw [catalog.reportedIds_eq, Finset.mem_sort] at hid
      exact (Finset.mem_sdiff.mp hid).1

/-- A catalog with a source that can only be fetched from. -/
def fetchOnlyCatalog : SourceCatalog :=
  ⟨[⟨.new ⟨"alpha", by decide⟩ "" ⟨false, true, false⟩, fun _ _ => ⟨[], .ok .null⟩⟩],
    List.nodup_singleton _⟩

/-- A source that cannot be searched is neither planned nor reported when it is selected. -/
theorem selection_lost : ¬∀ catalog request, SelectionAccounted catalog request := by
  intro hclaim
  have honce := (hclaim fetchOnlyCatalog ⟨⟨"q", none, none, none⟩, [⟨"alpha", by decide⟩], false⟩).once
    ⟨"alpha", by decide⟩ (by decide)
  rw [SourceCatalog.count_plannedIds, SourceCatalog.count_reportedIds] at honce
  exact absurd honce (by decide)

end Comsat
