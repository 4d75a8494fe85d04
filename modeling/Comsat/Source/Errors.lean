import Comsat.Source.Command

set_option relaxedAutoImplicit false
set_option autoImplicit false

/-!
# Errors of sources at the boundary of tools

An error of a source becomes the code and the message of a tool's error, and the engine reads it
back.

## Main definitions

* `streamBudget` — the error of the budget that a stream of records exceeds.
* `Reported` — the engine reports an error of a source as it is.

## Main results

* `runSourceOperation_of_stream` — what the engine reports for the first error of a stream.
* `source_error_reported_iff` — exactly when an error of a source is reported as it is.
-/

namespace Comsat

section

variable [ExternalParsers]

/-! ## Inputs -/

/-- The limit of an accepted query is small. -/
lemma Query.limit_of_validate {query : Query} (h : query.validate = .ok ()) :
    ∀ n ∈ query.limit, n < 2 ^ 32 := by
  intro n hn
  rw [Option.mem_def] at hn
  by_contra hlarge
  rw [Query.validate, hn] at h
  split at h
  · cases h
  · simp only [Option.any_some] at h
    rw [if_pos (by simp; omega)] at h
    cases h

variable {decodeError : Json → String}

/-- The arguments of an accepted query are read back. -/
lemma queryFromOptions_arguments {query : Query} (h : query.validate = .ok ()) :
    queryFromOptions decodeError (.obj (OperationInput.query query).arguments) = .ok query := by
  rw [queryFromOptions, OperationInput.arguments,
    Query.fromValue_arguments (Query.limit_of_validate h)]
  simp only [h]

/-- The arguments of an accepted target are read back. -/
lemma targetFromOptions_arguments {target : Target} (h : target.validate = .ok ()) :
    targetFromOptions decodeError (.obj (objectArguments target.toJson)) = .ok target := by
  rw [targetFromOptions, Target.fromValue_toJson]
  simp only [h]

/-! ## Tools -/

omit [ExternalParsers] in
/-- The names of the tools of a source are different. -/
lemma SourceDescriptor.toolName_injective {id : SourceId} {displayName : String}
    {profile : SourceProfile} {a b : OperationKind} {tool : String}
    (ha : (SourceDescriptor.new id displayName profile).toolName a = some tool)
    (hb : (SourceDescriptor.new id displayName profile).toolName b = some tool) : a = b := by
  have hname : ∀ {operation : OperationKind},
      (SourceDescriptor.new id displayName profile).toolName operation = some tool →
      ∃ stem : String, tool = stem ++ "_" ++ operation.asStr ∧
        stem = "comsat_" ++ String.ofList (id.value.toList.map fun c => if c = '-' then '_' else c) := by
    intro operation h
    rw [toolName.eq_def] at h
    split at h
    · refine ⟨_, ?_, rfl⟩
      cases operation <;> obtain rfl := Option.some.inj h <;>
        simp only [SourceDescriptor.new, SourceCommandNames.forSource, OperationKind.asStr,
          String.append_assoc] <;> rfl
    · cases h
  obtain ⟨stem, hstem, rfl⟩ := hname ha
  obtain ⟨stem', hstem', rfl⟩ := hname hb
  have heq := hstem.symm.trans hstem'
  rw [String.append_right_inj] at heq
  cases a <;> cases b <;> first | rfl | exact absurd heq (by decide)

variable [ToolLibrary]

/-- A tool of a source runs the command of its operation. -/
lemma SourceRuntime.tools_eq {id : SourceId} {displayName : String} {profile : SourceProfile}
    (runtime : SourceRuntime) {operation : OperationKind} {tool : String}
    (h : (SourceDescriptor.new id displayName profile).toolName operation = some tool)
    (arguments : List (String × Json)) :
    runtime.tools decodeError (.new id displayName profile) tool arguments =
      ToolLibrary.call ((SourceCommand.mk (.new id displayName profile) operation runtime).run
        decodeError (.obj arguments)) := by
  have hfind : [OperationKind.search, .fetch, .follow].find? (fun operation =>
      (SourceDescriptor.new id displayName profile).toolName operation = some tool) =
        some operation := by
    have hother : ∀ other, (SourceDescriptor.new id displayName profile).toolName other = some tool →
        other = operation := fun other hother => SourceDescriptor.toolName_injective hother h
    rw [List.find?_eq_some_iff_append]
    refine ⟨by simpa using h, ?_⟩
    cases operation
    · exact ⟨[], [.fetch, .follow], rfl, by simp⟩
    · refine ⟨[.search], [.follow], rfl, ?_⟩
      simpa using fun h => absurd (hother _ h) (by decide)
    · refine ⟨[.search, .fetch], [], rfl, ?_⟩
      simpa using ⟨fun h => absurd (hother _ h) (by decide), fun h => absurd (hother _ h) (by decide)⟩
  simp only [SourceRuntime.tools, hfind]

/-- A stream that gives records and then an error. -/
def failedStream (records : List Record) (error : SourceError)
    (rest : List (Except SourceError Record)) : List (Except SourceError Record) :=
  records.map .ok ++ .error error :: rest

omit [ToolLibrary] in
/-- The items of a stream of valid records that ends in an error. -/
lemma map_failedStream {records : List Record} {error : SourceError}
    {rest : List (Except SourceError Record)} (h : ∀ record ∈ records, record.validate = .ok ()) :
    (failedStream records error rest).map sourceResultToRecord =
      (records.map Record.toJson).map .chunk ++
        sourceErrorRecord error :: rest.map sourceResultToRecord := by
  rw [failedStream, List.map_append, List.map_map, List.map_cons, List.map_map]
  congr 1
  refine List.map_congr_left fun record hrecord => ?_
  simp [sourceResultToRecord, validateAndSerialize, h record hrecord]

/-! ## Budgets -/

variable {limits : EngineLimits} {source : SourceId}

/-- The error of a budget once so many records and bytes were counted. -/
def budgetVerdict (limits : EngineLimits) (source : SourceId) (records bytes : ℕ) :
    Option SourceError :=
  if limits.maxBytesPerSource < bytes then
    some (budgetError source "source byte budget exceeded")
  else if limits.maxRecordsPerSource < records then
    some (budgetError source "source record budget exceeded")
  else none

/-- The error of the budget that a stream of records exceeds, if it does. -/
def streamBudget (limits : EngineLimits) (source : SourceId) (records : List Record) :
    Option SourceError :=
  budgetVerdict limits source (min records.length usizeMax)
    (min (records.map fun record => record.toJson.byteLength).sum usizeMax)

omit [ExternalParsers] [ToolLibrary] in
/-- A counter stays a machine word. -/
lemma saturatingAdd_le (a b : ℕ) : saturatingAdd a b ≤ usizeMax := by
  rw [saturatingAdd]
  exact Nat.min_le_right _ _

omit [ExternalParsers] [ToolLibrary] in
/-- Counting a value judges by the new counters alone: they only grow, and an error stays. -/
lemma applyBudget_verdict {state : SinkState} (data : Json) (hbytes : state.bytes ≤ usizeMax)
    (hrecords : state.records ≤ usizeMax)
    (h : state.budgetError = budgetVerdict limits source state.records state.bytes) :
    (applyBudget limits source state data).2 =
      ⟨saturatingAdd state.records 1, saturatingAdd state.bytes data.byteLength,
          budgetVerdict limits source (saturatingAdd state.records 1)
            (saturatingAdd state.bytes data.byteLength)⟩ := by
  have hgrow : state.bytes ≤ saturatingAdd state.bytes data.byteLength := by
    rw [saturatingAdd]
    omega
  have hcount : state.records ≤ saturatingAdd state.records 1 := by
    rw [saturatingAdd]
    omega
  have hverdict : (if limits.maxBytesPerSource < saturatingAdd state.bytes data.byteLength then
        some (budgetError source "source byte budget exceeded")
      else if limits.maxRecordsPerSource < saturatingAdd state.records 1 then
        some (budgetError source "source record budget exceeded")
      else state.budgetError) =
      budgetVerdict limits source (saturatingAdd state.records 1)
        (saturatingAdd state.bytes data.byteLength) := by
    rw [budgetVerdict]
    split
    · rfl
    · split
      · rfl
      · rw [h, budgetVerdict, if_neg (by omega), if_neg (by omega)]
  simp only [applyBudget, hverdict]

omit [ToolLibrary] in
/-- Taking streamed records judges by their number and size alone. -/
lemma emitChunks_verdict {state : SinkState} {records : List Record}
    (hvalid : ∀ record ∈ records, record.validate = .ok ()) (hbytes : state.bytes ≤ usizeMax)
    (hrecords : state.records ≤ usizeMax)
    (h : state.budgetError = budgetVerdict limits source state.records state.bytes) :
    (emitChunks limits source state (records.map Record.toJson)).1.budgetError =
      budgetVerdict limits source (min (state.records + records.length) usizeMax)
        (min (state.bytes + (records.map fun record => record.toJson.byteLength).sum) usizeMax) := by
  induction records generalizing state with
  | nil => simpa [emitChunks, min_eq_left hrecords, min_eq_left hbytes] using h
  | cons record records ih =>
    have hstate := applyBudget_verdict record.toJson hbytes hrecords h
    have hnext : (emitRecordValue limits source state record.toJson).1 =
        (applyBudget limits source state record.toJson).2 := by
      rw [emitRecordValue]
      split
      · rename_i happly
        rw [happly]
      · rename_i happly
        simp only [Record.fromValue_toJson, hvalid record (List.mem_cons_self ..), happly]
    have hcount : ∀ a b c : ℕ, min (min (a + b) usizeMax + c) usizeMax = min (a + (b + c)) usizeMax := by
      intro a b c
      omega
    have hfold : (emitChunks limits source state ((record :: records).map Record.toJson)).1 =
        (emitChunks limits source (emitRecordValue limits source state record.toJson).1
          (records.map Record.toJson)).1 := by
      rw [List.map_cons, emitChunks]
    rw [hfold, hnext, hstate]
    have hrest := @ih ⟨saturatingAdd state.records 1, saturatingAdd state.bytes record.toJson.byteLength,
      budgetVerdict limits source (saturatingAdd state.records 1)
        (saturatingAdd state.bytes record.toJson.byteLength)⟩
      (fun other hother => hvalid other (List.mem_cons_of_mem _ hother))
      (saturatingAdd_le _ _) (saturatingAdd_le _ _) (by dsimp only)
    rw [hrest]
    simp only [saturatingAdd, hcount, List.map_cons, List.sum_cons, List.length_cons,
      Nat.add_comm 1]

/-! ## Reports -/

/-- The engine reports an error of a source as it is, in the name of the source it has asked. -/
def Reported (source : SourceId) (error : SourceError) (diagnostic : EngineDiagnostic) : Prop :=
  diagnostic = ⟨source, error.errorClass, error.message, error.retryAfterSeconds⟩

omit [ToolLibrary] in
/-- **What is reported of a stream.** After valid records that fit into the budget the engine
reports the class and the message of the error; otherwise it reports the budget. -/
theorem runSourceOperation_of_stream (limits : EngineLimits) (planned : PlannedSource)
    {tool : String} {records : List Record} {error : SourceError} {retryable : Bool}
    {exitCode : Option ℕ} (htool : planned.source.descriptor.toolName planned.operation = some tool)
    (hrun : planned.source.catalog tool planned.input.arguments =
      ⟨records.map Record.toJson, .error error.errorClass.code error.message retryable exitCode⟩)
    (hvalid : ∀ record ∈ records, record.validate = .ok ()) :
    ∃ events, runSourceOperation limits planned = events ++
      [failedEvent ((streamBudget limits planned.source.id records).getD
        ⟨planned.source.id, error.errorClass, error.message, none⟩)] := by
  have hbudget : (emitChunks limits planned.source.id .start
      (records.map Record.toJson)).1.budgetError =
        streamBudget limits planned.source.id records := by
    rw [emitChunks_verdict hvalid (Nat.zero_le _) (Nat.zero_le _)]
    · simp only [SinkState.start, Nat.zero_add, streamBudget]
    · simp [SinkState.start, budgetVerdict]
  refine ⟨(emitChunks limits planned.source.id .start (records.map Record.toJson)).2, ?_⟩
  simp only [runSourceOperation, htool, hrun, finishStreamOutcome, hbudget, errorClass_code]
  cases streamBudget limits planned.source.id records <;> rfl

omit [ExternalParsers] [ToolLibrary] in
/-- When an error of a source is reported as it is: the error says nothing about when to try again,
and no other error of the same class and with the same message takes its place. -/
lemma reported_iff (source : SourceId) (verdict : Option SourceError) (error : SourceError)
    (howner : ∀ found ∈ verdict, found.source = source ∧ found.retryAfterSeconds = none) :
    Reported source error
        (.ofError (verdict.getD ⟨source, error.errorClass, error.message, none⟩)) ↔
      error.retryAfterSeconds = none ∧ ∀ found ∈ verdict,
        found.errorClass = error.errorClass ∧ found.message = error.message := by
  cases verdict with
  | none => simp [Reported, EngineDiagnostic.ofError, eq_comm]
  | some found =>
    obtain ⟨hsource, hretry⟩ := howner found rfl
    simp only [Reported, EngineDiagnostic.ofError, Option.getD_some, hsource, hretry,
      EngineDiagnostic.mk.injEq, true_and, Option.mem_def, Option.some.injEq, forall_eq']
    exact ⟨fun h => ⟨h.2.2.symm, h.1, h.2.1⟩, fun h => ⟨h.2.1, h.2.2, h.1.symm⟩⟩

omit [ExternalParsers] [ToolLibrary] in
/-- The error of a budget is one of the source and does not say when to try again. -/
lemma owner_of_streamBudget [ExternalParsers] {records : List Record} :
    ∀ found ∈ streamBudget limits source records,
      found.source = source ∧ found.retryAfterSeconds = none := by
  intro found hfound
  simp only [streamBudget, budgetVerdict, Option.mem_def] at hfound
  split at hfound
  · obtain rfl := Option.some.inj hfound
    exact ⟨rfl, rfl⟩
  · split at hfound
    · obtain rfl := Option.some.inj hfound
      exact ⟨rfl, rfl⟩
    · cases hfound

/-- The call of a tool that streams: what the engine sends ends with the report of the error. -/
lemma runSourceOperation_failedStream {id : SourceId} {displayName : String}
    {profile : SourceProfile} {runtime : SourceRuntime} {operation : OperationKind}
    {input : OperationInput} {records : List Record} {error : SourceError}
    (rest : List (Except SourceError Record))
    (hsupported : (SourceDescriptor.new id displayName profile).supports operation = true)
    (hrun : (SourceCommand.mk (.new id displayName profile) operation runtime).run decodeError
      (.obj input.arguments) =
        .recordStream ((failedStream records error rest).map sourceResultToRecord))
    (hvalid : ∀ record ∈ records, record.validate = .ok ()) :
    ∃ events diagnostic,
      runSourceOperation limits
          ⟨.ofRuntime decodeError (.new id displayName profile) runtime, operation, input⟩ =
        events ++ [.failed diagnostic] ∧
      (Reported id error diagnostic ↔ error.retryAfterSeconds = none ∧
        ∀ found ∈ streamBudget limits id records,
          found.errorClass = error.errorClass ∧ found.message = error.message) := by
  obtain ⟨tool, htool⟩ : ∃ tool,
      (SourceDescriptor.new id displayName profile).toolName operation = some tool := by
    rw [SourceDescriptor.toolName.eq_def, if_pos hsupported]
    exact ⟨_, rfl⟩
  have hcall : runtime.tools decodeError (.new id displayName profile) tool input.arguments =
      ⟨records.map Record.toJson, .error error.errorClass.code error.message
        (isRetryable error.errorClass) (some 1)⟩ := by
    rw [runtime.tools_eq htool, hrun, map_failedStream hvalid]
    exact ToolLibrary.call_stream_error _ _ _ _ _ _
  let planned : PlannedSource :=
    ⟨.ofRuntime decodeError (.new id displayName profile) runtime, operation, input⟩
  obtain ⟨events, hevents⟩ :=
    runSourceOperation_of_stream limits planned htool hcall hvalid
  exact ⟨events, _, hevents, reported_iff id _ error owner_of_streamBudget⟩

/-- **Errors at the boundary.** What the engine reports for an error that a source of the program
returns is this error, in the name of the source asked, exactly when the error does not say when to
try again and, on a stream, the records before it have not exceeded the budget of the source (or
the error of the budget happens to have the same class and message).

**Proof sketch.** The arguments of the engine are read back, so the source is asked what the engine
was asked. The class and the message of the first error of the stream, or of the answer, pass the
boundary and are read back; a tool's error has no place for the waiting time. -/
theorem source_error_reported_iff (limits : EngineLimits) (decodeError : Json → String)
    (id : SourceId) (displayName : String) (profile : SourceProfile) (runtime : SourceRuntime)
    (error : SourceError) :
    -- a search
    (∀ query records rest, profile.search = true → query.validate = .ok () →
      (∀ record ∈ records, record.validate = .ok ()) →
      runtime.search query = failedStream records error rest →
      ∃ events diagnostic,
        runSourceOperation limits
            ⟨.ofRuntime decodeError (.new id displayName profile) runtime, .search, .query query⟩ =
          events ++ [.failed diagnostic] ∧
        (Reported id error diagnostic ↔ error.retryAfterSeconds = none ∧
          ∀ found ∈ streamBudget limits id records,
            found.errorClass = error.errorClass ∧ found.message = error.message)) ∧
    -- a follow
    (∀ target records rest, profile.follow = true → target.validate = .ok () →
      target.source = id → (∀ record ∈ records, record.validate = .ok ()) →
      runtime.follow target = failedStream records error rest →
      ∃ events diagnostic,
        runSourceOperation limits
            ⟨.ofRuntime decodeError (.new id displayName profile) runtime, .follow,
              .target target⟩ =
          events ++ [.failed diagnostic] ∧
        (Reported id error diagnostic ↔ error.retryAfterSeconds = none ∧
          ∀ found ∈ streamBudget limits id records,
            found.errorClass = error.errorClass ∧ found.message = error.message)) ∧
    -- a fetch
    ∀ target (catalog : SourceCatalog), profile.fetch = true → target.validate = .ok () →
      target.source = id →
      catalog.source id = some (.ofRuntime decodeError (.new id displayName profile) runtime) →
      runtime.fetch target = .error error →
      ∃ reported, fetch limits decodeError catalog target = .error (.source reported) ∧
        (Reported id error (.ofError reported) ↔ error.retryAfterSeconds = none) := by
  refine ⟨fun query records rest hprofile hquery hvalid hstream => ?_,
    fun target records rest hprofile htarget hsource hvalid hstream => ?_,
    fun target catalog hprofile htarget hsource hcatalog herror => ?_⟩
  · refine runSourceOperation_failedStream rest hprofile ?_ hvalid
    simp only [SourceCommand.run, SourceCommand.search, queryFromOptions_arguments hquery, hstream]
  · refine runSourceOperation_failedStream rest hprofile ?_ hvalid
    have hown : (SourceDescriptor.new id displayName profile).id = id := rfl
    simp only [SourceCommand.run, SourceCommand.follow, OperationInput.arguments,
      targetFromOptions_arguments htarget, SourceCommand.validateTargetSource, hown, if_pos hsource,
      hstream]
  · obtain ⟨tool, htool⟩ : ∃ tool,
        (SourceDescriptor.new id displayName profile).toolName .fetch = some tool := by
      rw [SourceDescriptor.toolName.eq_def, if_pos (by exact hprofile)]
      exact ⟨_, rfl⟩
    have hown : (SourceDescriptor.new id displayName profile).id = id := rfl
    have hcall : (runtime.tools decodeError (.new id displayName profile) tool
        (objectArguments target.toJson)).outcome =
          .error error.errorClass.code error.message (isRetryable error.errorClass) (some 1) := by
      rw [runtime.tools_eq htool]
      simp only [SourceCommand.run, SourceCommand.fetch, targetFromOptions_arguments htarget,
        SourceCommand.validateTargetSource, hown, if_pos hsource, herror, commandError,
        ToolLibrary.call_error]
    refine ⟨⟨id, error.errorClass, error.message, none⟩, ?_, ?_⟩
    · rw [fetch, hsource, hcatalog]
      simp only [CatalogSource.ofRuntime, htool, hcall, finishFetchOutcome, errorClass_code]
    · simpa using reported_iff id none error (by simp)

end

/-! ## A rate limit -/

/-- A source that answers every request with one error. -/
def SourceRuntime.failing (error : SourceError) : SourceRuntime where
  search _ := [.error error]
  fetch _ := .error error
  follow _ := [.error error]

/-- A rate limit, with the seconds to wait if the source says them. -/
def sampleRateLimit (retryAfterSeconds : Option ℕ) : SourceError :=
  ⟨⟨"github", SourceId.isValid_github⟩, .rateLimit, "GitHub request was rate limited",
    retryAfterSeconds⟩

/-- A source that fails with a rate limit, asked for a target of its own. -/
def sampleSource (retryAfterSeconds : Option ℕ) [ExternalParsers] [ToolLibrary] : CatalogSource :=
  .ofRuntime (fun _ => "invalid") (.new ⟨"github", SourceId.isValid_github⟩ "GitHub"
    ⟨true, true, true⟩) (.failing (sampleRateLimit retryAfterSeconds))

/-- A catalog of this source alone. -/
def sampleCatalog (retryAfterSeconds : Option ℕ) [ExternalParsers] [ToolLibrary] :
    SourceCatalog where
  sources := [sampleSource retryAfterSeconds]
  unique := by simp

/-- A rate limit without a waiting time is reported as it is, by a search, a follow and a fetch. -/
theorem source_error_reported_plain :
    letI : ExternalParsers := .ofHost "example.com"
    letI : ToolLibrary := .plain
    (∃ events diagnostic, runSourceOperation .default
        ⟨sampleSource none, .search, .query ⟨"rust", none, none, none⟩⟩ =
          events ++ [.failed diagnostic] ∧
        Reported ⟨"github", by decide⟩ (sampleRateLimit none) diagnostic) ∧
    (∃ events diagnostic, runSourceOperation .default
        ⟨sampleSource none, .follow, .target (.native ⟨"github", by decide⟩ "a/b#1")⟩ =
          events ++ [.failed diagnostic] ∧
        Reported ⟨"github", by decide⟩ (sampleRateLimit none) diagnostic) ∧
    ∃ reported, fetch .default (fun _ => "invalid") (sampleCatalog none)
        (.native ⟨"github", by decide⟩ "a/b#1") = .error (.source reported) ∧
      Reported ⟨"github", by decide⟩ (sampleRateLimit none) (.ofError reported) := by
  let _ : ExternalParsers := .ofHost "example.com"
  let _ : ToolLibrary := .plain
  obtain ⟨hsearch, hfollow, hfetch⟩ := source_error_reported_iff .default (fun _ => "invalid")
    ⟨"github", by decide⟩ "GitHub" ⟨true, true, true⟩ (.failing (sampleRateLimit none))
    (sampleRateLimit none)
  obtain ⟨events, diagnostic, hsent, hreported⟩ :=
    hsearch ⟨"rust", none, none, none⟩ [] [] rfl rfl (by simp) rfl
  obtain ⟨events', diagnostic', hsent', hreported'⟩ :=
    hfollow (.native ⟨"github", by decide⟩ "a/b#1") [] [] rfl rfl rfl (by simp) rfl
  obtain ⟨reported, hfetched, hreported''⟩ :=
    hfetch (.native ⟨"github", by decide⟩ "a/b#1") (sampleCatalog none) rfl rfl rfl rfl rfl
  exact ⟨⟨events, diagnostic, hsent, hreported.mpr ⟨rfl, by decide⟩⟩,
    ⟨events', diagnostic', hsent', hreported'.mpr ⟨rfl, by decide⟩⟩,
    reported, hfetched, hreported''.mpr rfl⟩

/-- A rate limit that says to wait for a minute is reported without the waiting time. -/
theorem source_error_loses_retry_after :
    letI : ExternalParsers := .ofHost "example.com"
    letI : ToolLibrary := .plain
    (∀ events diagnostic, runSourceOperation .default
        ⟨sampleSource (some 60), .search, .query ⟨"rust", none, none, none⟩⟩ =
          events ++ [.failed diagnostic] →
        ¬ Reported ⟨"github", by decide⟩ (sampleRateLimit (some 60)) diagnostic) ∧
    ∀ reported, fetch .default (fun _ => "invalid") (sampleCatalog (some 60))
        (.native ⟨"github", by decide⟩ "a/b#1") = .error (.source reported) →
      ¬ Reported ⟨"github", by decide⟩ (sampleRateLimit (some 60)) (.ofError reported) := by
  let _ : ExternalParsers := .ofHost "example.com"
  let _ : ToolLibrary := .plain
  refine ⟨fun events diagnostic hsent hreported => ?_, fun reported hfetched hreported => ?_⟩
  · have hrun : runSourceOperation .default
        ⟨sampleSource (some 60), .search, .query ⟨"rust", none, none, none⟩⟩ =
          [.failed ⟨⟨"github", by decide⟩, .rateLimit, "GitHub request was rate limited", none⟩] := by
      rfl
    have hlast := congrArg List.getLast? (hrun.symm.trans hsent)
    simp only [List.getLast?_singleton, List.getLast?_concat, Option.some.injEq,
      WorkerEvent.failed.injEq] at hlast
    have hretry := congrArg EngineDiagnostic.retryAfterSeconds (hlast.trans hreported)
    exact absurd hretry (by decide)
  · have hrun : fetch .default (fun _ => "invalid") (sampleCatalog (some 60))
        (.native ⟨"github", by decide⟩ "a/b#1") = .error (.source
          ⟨⟨"github", by decide⟩, .rateLimit, "GitHub request was rate limited", none⟩) := by
      rfl
    rw [hrun] at hfetched
    obtain rfl := EngineError.source.inj (Except.error.inj hfetched)
    have hretry := congrArg EngineDiagnostic.retryAfterSeconds hreported
    exact absurd hretry (by decide)

end Comsat
