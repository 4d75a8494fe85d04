import Comsat.Types.Error
import Comsat.Types.Record
import Mathlib

set_option relaxedAutoImplicit false
set_option autoImplicit false

/-!
# Catalogs and plans

The sources that are registered, what each of them supports, and which of them a search or a
follow runs, in which order.

## Main definitions

* `SourceDescriptor`, `CatalogSource`, `SourceCatalog` — a source, its tools, and the registered
  sources, whose identifiers are distinct.
* `SearchRequest`, `StreamPlan`, `PlannedSource` — what is asked and what is to be run.
* `planSources` — the sources to run, the diagnostics known beforehand and whether the first
  failure ends the stream.
* `selectedSet`, `SourceCatalog.registered`, `SourceCatalog.searchable` — the identifiers a
  request selects, those that are registered and those that can be searched, as sets.

## Main results

* `planSearch_pending`, `planSearch_diagnostics` — what a search runs and reports depends on
  these sets only, not on the order of the catalog or of the selection.

## Design

* The tools belong to a third-party library. A tool catalog is a parameter of the model: for a
  tool and its arguments, the chunks it streams and the outcome of the call.
-/

namespace Comsat

/-! ## Sources and their tools -/

/-- What a source can be asked to do. -/
inductive OperationKind where
  | search
  | fetch
  | follow
deriving DecidableEq, Repr

/-- The name of an operation. -/
def OperationKind.asStr : OperationKind → String
  | search => "search"
  | fetch => "fetch"
  | follow => "follow"

/-- The operations a source supports. -/
structure SourceProfile where
  search : Bool
  fetch : Bool
  follow : Bool
deriving DecidableEq

/-- The names of the tools of a source. -/
structure SourceCommandNames where
  search : String
  fetch : String
  follow : String
deriving DecidableEq

/-- The names of the tools of the source `source`. -/
def SourceCommandNames.forSource (source : SourceId) : SourceCommandNames :=
  let source := String.ofList (source.value.toList.map fun c => if c = '-' then '_' else c)
  { search := "comsat_" ++ source ++ "_search"
    fetch := "comsat_" ++ source ++ "_fetch"
    follow := "comsat_" ++ source ++ "_follow" }

/-- A source: its identifier, what it supports and the names of its tools. -/
structure SourceDescriptor where
  id : SourceId
  displayName : String
  profile : SourceProfile
  commands : SourceCommandNames
deriving DecidableEq

namespace SourceDescriptor

/-- A descriptor with the usual names of tools. -/
def new (id : SourceId) (displayName : String) (profile : SourceProfile) : SourceDescriptor :=
  ⟨id, displayName, profile, .forSource id⟩

/-- Whether the source supports an operation. -/
def supports (descriptor : SourceDescriptor) : OperationKind → Bool
  | .search => descriptor.profile.search
  | .fetch => descriptor.profile.fetch
  | .follow => descriptor.profile.follow

/-- The tool of a supported operation. -/
def toolName (descriptor : SourceDescriptor) (operation : OperationKind) : Option String :=
  if descriptor.supports operation then
    some (match operation with
      | .search => descriptor.commands.search
      | .fetch => descriptor.commands.fetch
      | .follow => descriptor.commands.follow)
  else none

end SourceDescriptor

/-- An item of a record stream. -/
inductive StreamRecord where
  | chunk (data : Json)
  | error (code message : String) (retryable : Bool) (exitCode : Option ℕ)

/-- How the call of a tool ends. -/
inductive ToolCallOutcome where
  | ok (data : Json)
  | error (code message : String) (retryable : Bool) (exitCode : Option ℕ)

/-- What the call of a tool does: the chunks it streams, in order, and how it ends. -/
structure ToolRun where
  /-- The data of the streamed chunks. -/
  chunks : List Json
  /-- How the call ends. -/
  outcome : ToolCallOutcome

/-- The tools of a source, by name and arguments. -/
abbrev ToolCatalog := String → List (String × Json) → ToolRun

/-- A source with its tools. -/
structure CatalogSource where
  descriptor : SourceDescriptor
  catalog : ToolCatalog

/-- The identifier of a source. -/
def CatalogSource.id (source : CatalogSource) : SourceId := source.descriptor.id

/-! ## Catalogs -/

/-- A failure of one source, as a stream reports it. -/
structure EngineDiagnostic where
  source : SourceId
  errorClass : ErrorClass
  message : String
  retryAfterSeconds : Option ℕ
deriving DecidableEq

/-- The diagnostic of an error of a source. -/
def EngineDiagnostic.ofError (error : SourceError) : EngineDiagnostic :=
  ⟨error.source, error.errorClass, error.message, error.retryAfterSeconds⟩

/-- The errors of the engine. -/
inductive EngineError where
  | sourceNotFound (source : SourceId)
  | duplicateSourceId (source : SourceId)
  | unsupported (source : SourceId) (operation : String)
  | source (error : SourceError)
deriving DecidableEq

/-- The registered sources. Their identifiers are distinct. -/
structure SourceCatalog where
  sources : List CatalogSource
  /-- No two sources share an identifier. -/
  unique : (sources.map CatalogSource.id).Nodup

/-- Looks for the first source whose identifier was seen before. -/
def validateUniqueSources (seen : List SourceId) : List CatalogSource → Except EngineError Unit
  | [] => .ok ()
  | source :: rest =>
    if source.id ∈ seen then .error (.duplicateSourceId source.id)
    else validateUniqueSources (source.id :: seen) rest

/-- Sources that pass the check have distinct identifiers, none of them seen before. -/
lemma nodup_of_validateUniqueSources {seen : List SourceId} {sources : List CatalogSource}
    (h : validateUniqueSources seen sources = .ok ()) :
    (sources.map CatalogSource.id).Nodup ∧ ∀ source ∈ sources, source.id ∉ seen := by
  induction sources generalizing seen with
  | nil => simp
  | cons source rest ih =>
    simp only [validateUniqueSources] at h
    split at h
    · cases h
    · rename_i hseen
      obtain ⟨hnodup, hrest⟩ := ih h
      refine ⟨List.nodup_cons.mpr ⟨?_, hnodup⟩, fun other hother => ?_⟩
      · intro hmem
        obtain ⟨other, hother, hid⟩ := List.mem_map.mp hmem
        exact hrest other hother (hid ▸ List.mem_cons_self ..)
      · obtain rfl | hother := List.mem_cons.mp hother
        · exact hseen
        · exact fun hmem => hrest other hother (List.mem_cons_of_mem _ hmem)

/-- Sources with distinct identifiers, none of them seen before, pass the check. -/
lemma validateUniqueSources_eq_ok {seen : List SourceId} {sources : List CatalogSource}
    (hnodup : (sources.map CatalogSource.id).Nodup)
    (hseen : ∀ source ∈ sources, source.id ∉ seen) :
    validateUniqueSources seen sources = .ok () := by
  induction sources generalizing seen with
  | nil => rfl
  | cons source rest ih =>
    rw [List.map_cons, List.nodup_cons] at hnodup
    rw [validateUniqueSources, if_neg (hseen source (List.mem_cons_self ..))]
    refine ih hnodup.2 fun other hother hmem => ?_
    obtain hid | hmem := List.mem_cons.mp hmem
    · exact hnodup.1 (hid ▸ List.mem_map_of_mem hother)
    · exact hseen other (List.mem_cons_of_mem _ hother) hmem

namespace SourceCatalog

/-- Makes a catalog of sources with distinct identifiers. -/
def tryNew (sources : List CatalogSource) : Except EngineError SourceCatalog :=
  match h : validateUniqueSources [] sources with
  | .error error => .error error
  | .ok () => .ok ⟨sources, (nodup_of_validateUniqueSources h).1⟩

/-- The registered source with an identifier. -/
def source (catalog : SourceCatalog) (id : SourceId) : Option CatalogSource :=
  catalog.sources.find? fun source => source.id = id

/-- The identifiers of the registered sources. -/
def registered (catalog : SourceCatalog) : Finset SourceId :=
  (catalog.sources.map CatalogSource.id).toFinset

/-- The identifiers of the registered sources that can be searched. -/
def searchable (catalog : SourceCatalog) : Finset SourceId :=
  ((catalog.sources.filter fun source => source.descriptor.supports .search).map
    CatalogSource.id).toFinset

end SourceCatalog

/-! ## Plans -/

/-- Source identifiers are ordered by their texts. -/
instance : LinearOrder SourceId where
  __ := LinearOrder.lift' SourceId.value fun _ _ => SourceId.ext_value
  toDecidableEq := inferInstance

/-- A search over several sources. An empty selection stands for all of them. -/
structure SearchRequest where
  query : Query
  sources : List SourceId
  strict : Bool

/-- What a stream is for. -/
inductive StreamPlan where
  | search (request : SearchRequest)
  | follow (target : Target)

/-- The input of an operation. -/
inductive OperationInput where
  | query (query : Query)
  | target (target : Target)

/-- A source that a stream is going to run. -/
structure PlannedSource where
  source : CatalogSource
  operation : OperationKind
  input : OperationInput

/-- The diagnostic of a source that is not registered. -/
def sourceNotFound (source : SourceId) : EngineDiagnostic :=
  ⟨source, .notFound, "source is not registered", none⟩

/-- The diagnostic of an operation that a source does not support. -/
def unsupported (source : SourceId) (operation : OperationKind) : EngineDiagnostic :=
  ⟨source, .unsupported, "source does not support " ++ operation.asStr, none⟩

/-- Identifiers in order, each of them once. -/
def sortDedup (ids : List SourceId) : List SourceId :=
  (ids.insertionSort (· ≤ ·)).destutter (· ≠ ·)

section

variable (sources : List CatalogSource)

/-- The source with an identifier: a later entry replaces an earlier one with the same
identifier. -/
def sourcesById (id : SourceId) : Option CatalogSource :=
  sources.reverse.find? fun source => source.id = id

/-- The identifiers a search selects. -/
def selectedSourceIds (selected : List SourceId) : List SourceId :=
  sortDedup (if selected.isEmpty then sources.map CatalogSource.id else selected)

/-- One diagnostic for every selected identifier that is not registered. -/
def missingSourceDiagnostics (selected : List SourceId) : List EngineDiagnostic :=
  (sortDedup (selected.filter fun id => (sourcesById sources id).isNone)).map sourceNotFound

/-- A search of one source. -/
def plannedSearch (source : CatalogSource) (request : SearchRequest) : PlannedSource :=
  ⟨source, .search, .query request.query⟩

/-- A follow of one source. -/
def plannedFollow (source : CatalogSource) (target : Target) : PlannedSource :=
  ⟨source, .follow, .target target⟩

/-- The plan of a search: the selected sources that can be searched. -/
def planSearch (request : SearchRequest) : List PlannedSource × List EngineDiagnostic × Bool :=
  (((selectedSourceIds sources request.sources).filterMap (sourcesById sources)
      |>.filter fun source => source.descriptor.supports .search).map
      fun source => plannedSearch source request,
    missingSourceDiagnostics sources request.sources,
    request.strict)

/-- The plan of a follow: the source of the target. -/
def planFollow (target : Target) : List PlannedSource × List EngineDiagnostic × Bool :=
  match sourcesById sources target.source with
  | none => ([], [sourceNotFound target.source], false)
  | some source =>
    if source.descriptor.supports .follow then ([plannedFollow source target], [], false)
    else ([], [unsupported target.source .follow], false)

/-- The plan of a stream. -/
def planSources : StreamPlan → List PlannedSource × List EngineDiagnostic × Bool
  | .search request => planSearch sources request
  | .follow target => planFollow sources target

end

/-! ## What a plan depends on -/

/-- Sorting without repetitions lists the set of the identifiers. -/
lemma sortDedup_eq_sort (ids : List SourceId) : sortDedup ids = ids.toFinset.sort := by
  have hsorted : (ids.insertionSort (· ≤ ·)).Pairwise (· ≤ ·) :=
    List.pairwise_insertionSort (· ≤ ·) ids
  have hdedup : ids.toFinset = (ids.insertionSort (· ≤ ·)).dedup.toFinset := by
    ext id
    simp
  rw [sortDedup, hsorted.destutter_eq_dedup, hdedup]
  exact ((List.toFinset_sort _ (List.nodup_dedup _)).mpr
    (hsorted.sublist (List.dedup_sublist _))).symm

/-- Filtering a sorted set lists the filtered set. -/
lemma filter_sort (ids : Finset SourceId) (p : SourceId → Prop) [DecidablePred p] :
    ids.sort.filter p = (ids.filter p).sort := by
  have hset : ids.filter p = (ids.sort.filter p).toFinset := by
    ext id
    simp
  rw [hset]
  exact ((List.toFinset_sort _ ((Finset.sort_nodup _ _).filter _)).mpr
    ((Finset.pairwise_sort _ _).filter _)).symm

/-- The source found for an identifier has this identifier and is registered. -/
lemma sourcesById_eq_some {sources : List CatalogSource} {id : SourceId} {source : CatalogSource}
    (h : sourcesById sources id = some source) : source ∈ sources ∧ source.id = id :=
  ⟨List.mem_reverse.mp (List.mem_of_find?_eq_some h), by simpa using List.find?_some h⟩

/-- No source is found exactly when none has the identifier. -/
lemma sourcesById_eq_none {sources : List CatalogSource} {id : SourceId} :
    sourcesById sources id = none ↔ id ∉ sources.map CatalogSource.id := by
  simp [sourcesById]

namespace SourceCatalog

variable (catalog : SourceCatalog)

/-- Registered sources with the same identifier are the same. -/
lemma eq_of_id_eq {a b : CatalogSource} (ha : a ∈ catalog.sources) (hb : b ∈ catalog.sources)
    (h : a.id = b.id) : a = b :=
  List.inj_on_of_nodup_map catalog.unique ha hb h

/-- A registered source is found by its identifier. -/
lemma sourcesById_id {source : CatalogSource} (h : source ∈ catalog.sources) :
    sourcesById catalog.sources source.id = some source := by
  cases hfound : sourcesById catalog.sources source.id with
  | none => exact absurd (List.mem_map_of_mem h) (sourcesById_eq_none.mp hfound)
  | some found =>
    obtain ⟨hmem, hid⟩ := sourcesById_eq_some hfound
    rw [catalog.eq_of_id_eq hmem h hid]

/-- An identifier can be searched when the source found for it can. -/
lemma mem_searchable {id : SourceId} :
    id ∈ catalog.searchable ↔ ∃ source, sourcesById catalog.sources id = some source ∧
      source.descriptor.supports .search = true := by
  simp only [searchable, List.mem_toFinset, List.mem_map, List.mem_filter]
  constructor
  · rintro ⟨source, ⟨hmem, hsupports⟩, rfl⟩
    exact ⟨source, catalog.sourcesById_id hmem, hsupports⟩
  · rintro ⟨source, hfound, hsupports⟩
    exact ⟨source, ⟨(sourcesById_eq_some hfound).1, hsupports⟩, (sourcesById_eq_some hfound).2⟩

/-- What can be searched is registered. -/
lemma searchable_subset : catalog.searchable ⊆ catalog.registered := by
  intro id h
  obtain ⟨source, hfound, _⟩ := catalog.mem_searchable.mp h
  obtain ⟨hmem, rfl⟩ := sourcesById_eq_some hfound
  exact List.mem_toFinset.mpr (List.mem_map_of_mem hmem)

/-- The identifiers a search selects: all registered ones when it names none. -/
def selectedSet (selected : List SourceId) : Finset SourceId :=
  if selected = [] then catalog.registered else selected.toFinset

/-- The selected identifiers, in order. -/
lemma selectedSourceIds_eq (selected : List SourceId) :
    selectedSourceIds catalog.sources selected = (catalog.selectedSet selected).sort := by
  rw [selectedSourceIds, sortDedup_eq_sort, selectedSet]
  by_cases h : selected = [] <;> simp [h, registered]

/-- Looking identifiers up and keeping what can be searched keeps the searchable identifiers. -/
lemma map_id_filterMap (ids : List SourceId) :
    ((ids.filterMap (sourcesById catalog.sources)).filter fun source =>
      source.descriptor.supports .search).map CatalogSource.id =
      ids.filter (· ∈ catalog.searchable) := by
  induction ids with
  | nil => rfl
  | cons id ids ih =>
    rw [List.filter_cons]
    cases hfound : sourcesById catalog.sources id with
    | none =>
      have hnot : id ∉ catalog.searchable := by
        rw [mem_searchable]
        simp [hfound]
      simpa [hfound, hnot] using ih
    | some source =>
      have hid := (sourcesById_eq_some hfound).2
      have hiff : id ∈ catalog.searchable ↔ source.descriptor.supports .search = true := by
        rw [mem_searchable]
        simp [hfound]
      by_cases hsupports : source.descriptor.supports .search = true
      · simpa [hfound, hsupports, hiff, hid] using ih
      · simpa [hfound, hsupports, hiff] using ih

/-- **What a search runs.** The selected searchable sources, in the order of their identifiers. -/
theorem planSearch_pending (request : SearchRequest) :
    (planSearch catalog.sources request).1.map (fun planned => planned.source.id) =
      (catalog.selectedSet request.sources ∩ catalog.searchable).sort := by
  have hids := catalog.map_id_filterMap (selectedSourceIds catalog.sources request.sources)
  rw [selectedSourceIds_eq, filter_sort, Finset.filter_mem_eq_inter] at hids
  simpa [planSearch, plannedSearch, selectedSourceIds_eq, Function.comp_def] using hids

/-- **What a search reports beforehand.** The selected sources that are not registered, in the
order of their identifiers. -/
theorem planSearch_diagnostics (request : SearchRequest) :
    (planSearch catalog.sources request).2.1 =
      (catalog.selectedSet request.sources \ catalog.registered).sort.map sourceNotFound := by
  have hset : (request.sources.filter fun id =>
      (sourcesById catalog.sources id).isNone).toFinset =
      catalog.selectedSet request.sources \ catalog.registered := by
    ext id
    by_cases h : request.sources = []
    · simp [h, selectedSet]
    · simp [h, selectedSet, registered, Option.isNone_iff_eq_none, sourcesById_eq_none]
  rw [planSearch, missingSourceDiagnostics, sortDedup_eq_sort, hset]

end SourceCatalog

end Comsat
