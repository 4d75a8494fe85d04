import Comsat.Source.Command

set_option relaxedAutoImplicit false
set_option autoImplicit false

/-!
# Start-up with plugins

When the command line starts it loads the plugins that are configured and joins them with the
sources of the program in one catalog.

## Main definitions

* `firstPartySources` — the sources of the program.
* `loadSources` — the plugins that load, and a diagnostic for each of the others.
* `catalogWithAgentPlugins`, `buildCatalog` — the catalog of the plugins, and the catalog of the
  application.
* `PluginsIsolated` — what a start-up promises whatever the plugins are.

## Main results

* `pluginsIsolated_iff` — exactly when start-up keeps this promise.

## Design

* A plugin is its root and what loading it gives, a source or the text of an error; a root that is
  named twice is loaded twice.
* A start-up ends in a value, in an error or in a panic.
-/

namespace Comsat

/-! ## Sources of the program -/

/-- The descriptors of the sources of the program. -/
def firstPartyDescriptors : List SourceDescriptor :=
  [.new ⟨"github", SourceId.isValid_github⟩ "GitHub" ⟨true, true, true⟩,
    .new ⟨"hacker-news", SourceId.isValid_hackerNews⟩ "Hacker News" ⟨true, true, true⟩,
    .new ⟨"stack-exchange", SourceId.isValid_stackExchange⟩ "Stack Exchange" ⟨true, true, true⟩,
    .new ⟨"web", SourceId.isValid_web⟩ "Web Search" ⟨true, true, false⟩]

/-- The identifiers of the sources of the program. -/
def firstPartyIds : List SourceId := firstPartyDescriptors.map SourceDescriptor.id

/-- The sources of the program, each with its runtime. -/
def firstPartySources [ExternalParsers] [ToolLibrary] (decodeError : Json → String)
    (runtime : SourceDescriptor → SourceRuntime) : List CatalogSource :=
  firstPartyDescriptors.map fun descriptor => .ofRuntime decodeError descriptor (runtime descriptor)

/-! ## Start-up -/

/-- How a step of start-up ends. A panic shows its message, and behind it the error. -/
inductive StartUp (α : Type) where
  | done (value : α)
  | failed (error : EngineError)
  | panicked (message : String) (error : EngineError)

/-- A plugin that was not loaded. -/
structure PluginLoadDiagnostic where
  root : String
  message : String

/-- What came of loading plugins. -/
structure PluginLoadReport where
  sources : List CatalogSource
  diagnostics : List PluginLoadDiagnostic

/-- Makes a catalog of sources that must have distinct identifiers. -/
def SourceCatalog.new (sources : List CatalogSource) : StartUp SourceCatalog :=
  match SourceCatalog.tryNew sources with
  | .ok catalog => .done catalog
  | .error error => .panicked "source catalog must not contain duplicate source ids" error

/-- Loads the plugins one after another: each root comes with what loading it gives. -/
def loadSources : List (String × Except String CatalogSource) → PluginLoadReport
  | [] => ⟨[], []⟩
  | (root, loaded) :: plugins =>
    let report := loadSources plugins
    match loaded with
    | .ok source => { report with sources := source :: report.sources }
    | .error message => { report with diagnostics := ⟨root, message⟩ :: report.diagnostics }

/-- The catalog of the plugins, and the diagnostics that are printed. -/
def catalogWithAgentPlugins (plugins : List (String × Except String CatalogSource)) :
    List PluginLoadDiagnostic × StartUp SourceCatalog :=
  let report := loadSources plugins
  (report.diagnostics, SourceCatalog.new report.sources)

/-- The catalog of the application, and the diagnostics that are printed. -/
def buildCatalog (firstParty : List CatalogSource)
    (plugins : List (String × Except String CatalogSource)) :
    List PluginLoadDiagnostic × StartUp SourceCatalog :=
  match catalogWithAgentPlugins plugins with
  | (diagnostics, .done external) =>
    match SourceCatalog.tryNew (firstParty ++ external.sources) with
    | .ok catalog => (diagnostics, .done catalog)
    | .error error => (diagnostics, .failed error)
  | (diagnostics, .failed error) => (diagnostics, .failed error)
  | (diagnostics, .panicked message error) => (diagnostics, .panicked message error)

/-- The identifiers of the plugins that load, in order. -/
def loadedIds (plugins : List (String × Except String CatalogSource)) : List SourceId :=
  (loadSources plugins).sources.map CatalogSource.id

/-- What start-up promises whatever the plugins are: it succeeds; the catalog holds the sources of
the program, a source for every identifier of a plugin that loads, and nothing else; and every
plugin that is not in the catalog is reported. (A catalog holds no identifier twice.) -/
structure PluginsIsolated (firstParty : List CatalogSource)
    (plugins : List (String × Except String CatalogSource))
    (catalog : SourceCatalog) (diagnostics : List PluginLoadDiagnostic) : Prop where
  /-- The sources of the program are there. -/
  kept : ∀ source ∈ firstParty, source ∈ catalog.sources
  /-- The identifiers of the plugins are there. -/
  joined : ∀ plugin ∈ plugins, ∀ source, plugin.2 = .ok source → source.id ∈ catalog.registered
  /-- Nothing else is there. -/
  only : ∀ source ∈ catalog.sources,
    source ∈ firstParty ∨ ∃ plugin ∈ plugins, plugin.2 = .ok source
  /-- Every other plugin is reported. -/
  reported : ∀ plugin ∈ plugins, (∀ source ∈ catalog.sources, plugin.2 ≠ .ok source) →
    ∃ diagnostic ∈ diagnostics, diagnostic.root = plugin.1

variable {plugins : List (String × Except String CatalogSource)}

/-- The loaded sources are those of the plugins that load. -/
lemma mem_loadSources {source : CatalogSource} :
    source ∈ (loadSources plugins).sources ↔ ∃ plugin ∈ plugins, plugin.2 = .ok source := by
  induction plugins with
  | nil => simp [loadSources]
  | cons plugin plugins ih =>
    obtain ⟨root, loaded⟩ := plugin
    rw [List.exists_mem_cons_iff, ← ih]
    cases loaded with
    | ok found => simp only [loadSources, List.mem_cons, Except.ok.injEq, eq_comm]
    | error message => simp only [loadSources, reduceCtorEq, false_or]

/-- Every plugin that does not load is reported. -/
lemma exists_diagnostic {root message : String} (hplugin : (root, .error message) ∈ plugins) :
    ∃ diagnostic ∈ (loadSources plugins).diagnostics, diagnostic.root = root := by
  induction plugins with
  | nil => cases hplugin
  | cons first plugins ih =>
    obtain rfl | hplugin := List.mem_cons.mp hplugin
    · exact ⟨_, List.mem_cons_self .., rfl⟩
    · obtain ⟨diagnostic, hmem, hdiagnostic⟩ := ih hplugin
      obtain ⟨other, loaded⟩ := first
      cases loaded with
      | ok source => exact ⟨diagnostic, hmem, hdiagnostic⟩
      | error text => exact ⟨diagnostic, List.mem_cons_of_mem _ hmem, hdiagnostic⟩

/-- A catalog is made of sources with distinct identifiers. -/
lemma SourceCatalog.tryNew_of_nodup {sources : List CatalogSource}
    (h : (sources.map CatalogSource.id).Nodup) : tryNew sources = .ok ⟨sources, h⟩ := by
  have hvalid : validateUniqueSources [] sources = .ok () :=
    validateUniqueSources_eq_ok h (by simp)
  rw [tryNew]
  split
  · rename_i error herror
    rw [hvalid] at herror
    cases herror
  · rfl

/-- A catalog is made only of sources with distinct identifiers. -/
lemma SourceCatalog.nodup_of_tryNew {sources : List CatalogSource} {catalog : SourceCatalog}
    (h : tryNew sources = .ok catalog) :
    catalog.sources = sources ∧ (sources.map CatalogSource.id).Nodup := by
  rw [tryNew] at h
  split at h
  · cases h
  · rename_i hvalid
    obtain rfl := Except.ok.inj h
    exact ⟨rfl, (nodup_of_validateUniqueSources hvalid).1⟩

variable {firstParty : List CatalogSource}

/-- Start-up succeeds exactly when all identifiers are distinct, with the sources of the program
and those of the plugins in this order. -/
lemma buildCatalog_eq_done {diagnostics : List PluginLoadDiagnostic} {catalog : SourceCatalog} :
    buildCatalog firstParty plugins = (diagnostics, .done catalog) ↔
      diagnostics = (loadSources plugins).diagnostics ∧
      catalog.sources = firstParty ++ (loadSources plugins).sources := by
  constructor
  · intro h
    simp only [buildCatalog, catalogWithAgentPlugins, SourceCatalog.new] at h
    split at h
    · rename_i external hexternal
      split at hexternal
      · rename_i found hfound
        simp only [Prod.mk.injEq, StartUp.done.injEq] at hexternal
        obtain ⟨rfl, rfl⟩ := hexternal
        split at h
        · rename_i joined hjoined
          simp only [Prod.mk.injEq, StartUp.done.injEq] at h
          obtain ⟨rfl, rfl⟩ := h
          exact ⟨rfl, by rw [(SourceCatalog.nodup_of_tryNew hjoined).1,
            (SourceCatalog.nodup_of_tryNew hfound).1]⟩
        · simp at h
      · simp at hexternal
    · simp at h
    · simp at h
  · rintro ⟨rfl, hsources⟩
    obtain ⟨sources, hunique⟩ := catalog
    obtain rfl : sources = _ := hsources
    have hplugins : ((loadSources plugins).sources.map CatalogSource.id).Nodup := by
      rw [List.map_append] at hunique
      exact (List.nodup_append.mp hunique).2.1
    simp only [buildCatalog, catalogWithAgentPlugins, SourceCatalog.new,
      SourceCatalog.tryNew_of_nodup hplugins, SourceCatalog.tryNew_of_nodup hunique]

/-- A start-up that succeeds keeps its promise. -/
lemma isolated_of_sources {catalog : SourceCatalog}
    (h : catalog.sources = firstParty ++ (loadSources plugins).sources) :
    PluginsIsolated firstParty plugins catalog (loadSources plugins).diagnostics where
  kept source hsource := by
    rw [h]
    exact List.mem_append_left _ hsource
  joined plugin hplugin source hload := by
    have hmem : source ∈ catalog.sources := by
      rw [h]
      exact List.mem_append_right _ (mem_loadSources.mpr ⟨plugin, hplugin, hload⟩)
    exact List.mem_toFinset.mpr (List.mem_map_of_mem hmem)
  only source hsource := by
    rw [h] at hsource
    exact (List.mem_append.mp hsource).imp id mem_loadSources.mp
  reported plugin hplugin hmissing := by
    obtain ⟨root, loaded⟩ := plugin
    cases loaded with
    | error message => exact exists_diagnostic hplugin
    | ok source =>
      refine absurd rfl (hmissing source ?_)
      rw [h]
      exact List.mem_append_right _ (mem_loadSources.mpr ⟨_, hplugin, rfl⟩)

section

variable [ExternalParsers] [ToolLibrary]

/-- The sources of the program have the identifiers of their descriptors. -/
lemma map_id_firstPartySources (decodeError : Json → String)
    (runtime : SourceDescriptor → SourceRuntime) :
    (firstPartySources decodeError runtime).map CatalogSource.id = firstPartyIds := by
  rw [firstPartySources, List.map_map]
  rfl

/-- **Plugins at start-up.** Start-up succeeds with every source of the program, every plugin that
loads and a diagnostic for every other plugin exactly when the plugins that load have distinct
identifiers, none of them one of a source of the program.

**Proof sketch.** A repeated identifier among the plugins panics when their catalog is made, one of
a source of the program fails when the two are joined. Without either the joined list is the
catalog. -/
theorem pluginsIsolated_iff (decodeError : Json → String)
    (runtime : SourceDescriptor → SourceRuntime)
    (plugins : List (String × Except String CatalogSource)) :
    (∃ diagnostics catalog,
      buildCatalog (firstPartySources decodeError runtime) plugins =
        (diagnostics, .done catalog) ∧
      PluginsIsolated (firstPartySources decodeError runtime) plugins catalog diagnostics) ↔
    (loadedIds plugins).Nodup ∧ ∀ id ∈ loadedIds plugins, id ∉ firstPartyIds := by
  have hids : ((firstPartySources decodeError runtime ++ (loadSources plugins).sources).map
      CatalogSource.id).Nodup ↔
        (loadedIds plugins).Nodup ∧ ∀ id ∈ loadedIds plugins, id ∉ firstPartyIds := by
    rw [List.map_append, map_id_firstPartySources, loadedIds, List.nodup_append]
    have hfirst : firstPartyIds.Nodup := by decide
    constructor
    · rintro ⟨-, hplugins, hne⟩
      exact ⟨hplugins, fun id hid hmem => hne id hmem id hid rfl⟩
    · rintro ⟨hplugins, hnot⟩
      refine ⟨hfirst, hplugins, fun a ha b hb hab => ?_⟩
      exact hnot b hb (hab ▸ ha)
  rw [← hids]
  constructor
  · rintro ⟨diagnostics, catalog, hbuild, -⟩
    rw [← (buildCatalog_eq_done.mp hbuild).2]
    exact catalog.unique
  · intro hunique
    exact ⟨_, ⟨_, hunique⟩, buildCatalog_eq_done.mpr ⟨rfl, rfl⟩, isolated_of_sources rfl⟩

end

/-- A plugin that loads, and does nothing, with the identifier `id`. -/
def samplePlugin (id : SourceId) : CatalogSource :=
  ⟨.new id "Plugin" ⟨true, false, false⟩, fun _ _ => ⟨[], .ok .null⟩⟩

/-- Two plugins that load with one and the same identifier. -/
def sameId : List (String × Except String CatalogSource) :=
  let loaded := .ok (samplePlugin ⟨"external", by decide⟩)
  [("/plugins/a", loaded), ("/plugins/b", loaded)]

/-- A plugin that loads with the identifier of a source of the program. -/
def firstPartyId : List (String × Except String CatalogSource) :=
  [("/plugins/a", .ok (samplePlugin ⟨"github", by decide⟩))]

/-- Two plugins with one identifier make start-up panic, and a plugin with the identifier of a
source of the program makes it fail; neither is reported. -/
theorem plugins_not_isolated :
    letI : ExternalParsers := .ofHost "example.com"
    letI : ToolLibrary := .plain
    let firstParty := firstPartySources (fun _ => "invalid") fun _ =>
      ⟨fun _ => [], fun _ => .error ⟨⟨"github", by decide⟩, .notFound, "", none⟩, fun _ => []⟩
    buildCatalog firstParty sameId =
        ([], .panicked "source catalog must not contain duplicate source ids"
          (.duplicateSourceId ⟨"external", by decide⟩)) ∧
      buildCatalog firstParty firstPartyId =
        ([], .failed (.duplicateSourceId ⟨"github", by decide⟩)) := by
  exact ⟨rfl, rfl⟩

end Comsat
