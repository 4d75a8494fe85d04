import Comsat.App.Attribution
import Comsat.App.RecordStream
import Comsat.Source.Command

set_option relaxedAutoImplicit false
set_option autoImplicit false

/-!
# Streams of targets

Without a target of their own, the commands `fetch` and `follow` read targets from a stream and
answer them one after the other.

## Main definitions

* `fetchCommand` — the result of fetching a single target.
* `fetchTargetsStream`, `followTargetsStream` — the items for a stream of targets.
* `untilFailed` — streams behind one another, up to the first that fails.

## Main results

* `target_streams_law` — a stream of targets is answered as the single targets are, up to the first
  that fails.

## Design

* Each target comes with the catalog as its tools answer when the turn is its own, so that a target
  that is read twice may be answered otherwise, and a followed one with the rounds in which its
  engine is polled.
* The error of a failed strict search has no place here: no function returns it.
-/

namespace Comsat

/-! ## Errors -/

/-- The code of an error of the engine. -/
def engineErrorCode : EngineError → String
  | .source error => errorCode error.errorClass
  | .sourceNotFound _ => "not_found"
  | .duplicateSourceId _ => "invalid_query"
  | .unsupported _ _ => "unsupported"

/-- The exit code for an error of the engine. -/
def engineErrorExitCode : EngineError → ℕ
  | .duplicateSourceId _ => 2
  | _ => 1

/-- The message of an error of the engine. -/
def EngineError.message : EngineError → String
  | .sourceNotFound id => s!"source not found: {id.value}"
  | .duplicateSourceId id => s!"duplicate source id: {id.value}"
  | .unsupported id operation => s!"source does not support {operation}: {id.value}"
  | .source error => s!"{error.source.value}: {error.message}"

/-- The error item for an error of the engine. -/
def engineErrorRecord : EngineError → StreamRecord
  | .source error =>
    .error (errorCode error.errorClass) s!"{error.source.value}: {error.message}"
      (retryable error.errorClass) (some 1)
  | other => .error (engineErrorCode other) other.message false (some (engineErrorExitCode other))

/-- A command that fails. -/
def Commands.commandError (code message : String) (retryable : Bool) (exitCode : ℕ) : CommandResult :=
  .error code message retryable (some exitCode)

/-- The result for an error of a source. -/
def sourceErrorResult (error : SourceError) : CommandResult :=
  Commands.commandError (errorCode error.errorClass) s!"{error.source.value}: {error.message}"
    (retryable error.errorClass) 1

/-- The result for an error of the engine. -/
def engineErrorResult : EngineError → CommandResult
  | .source error => sourceErrorResult error
  | .sourceNotFound source =>
    Commands.commandError "not_found" s!"source not found: {source.value}" false 1
  | .unsupported source operation =>
    Commands.commandError "unsupported" s!"source does not support {operation}: {source.value}" false 1
  | .duplicateSourceId source =>
    Commands.commandError "invalid_query" s!"duplicate source id: {source.value}" false 2

/-- The items that say the same as a result. -/
def CommandResult.items : CommandResult → List StreamRecord
  | ok data => [.chunk data]
  | error code message retryable exitCode => [.error code message retryable exitCode]
  | recordStream items => items

/-- An error of the engine is the same in a stream and as a result. -/
lemma items_engineErrorResult (error : EngineError) :
    (engineErrorResult error).items = [engineErrorRecord error] := by
  cases error <;> rfl

/-! ## Targets one after the other -/

section

variable [ExternalParsers] (catalog : SourceCatalog) (limits : EngineLimits)
  (decodeError : Json → String)

/-- The result for a fetched record. -/
def recordResult (record : Record) : CommandResult :=
  match recordValue record with
  | .ok data => .ok data
  | .error message => Commands.commandError "protocol" message false 1

/-- Fetches a single target. -/
def fetchCommand (target : Target) : CommandResult :=
  match fetch limits decodeError catalog target with
  | .ok record => recordResult record
  | .error error => engineErrorResult error

/-- Fetches the targets of a stream. -/
def fetchTargetsStream : List (Except String Target × SourceCatalog) → List StreamRecord
  | [] => []
  | (.error message, _) :: _ => [streamError "invalid_query" message false 2]
  | (.ok target, catalog) :: targets =>
    match fetch limits decodeError catalog target with
    | .ok record =>
      match recordValue record with
      | .ok value => .chunk value :: fetchTargetsStream targets
      | .error message => [streamError "protocol" message false 1]
    | .error error => [engineErrorRecord error]

/-- The events of following a target. -/
def followEvents (target : Target) (polls : List (List Round)) : List EngineEvent :=
  (SearchDriver.new catalog.sources (.follow target) limits).emitted (runSourceOperation limits)
    polls

/-- The items for the events of one target, and then those of the targets behind it. -/
def followTargetItems (state : RecordStreamState) (later : List StreamRecord) :
    List EngineEvent → List StreamRecord
  | [] => later
  | event :: events =>
    let state := state.observe event
    let rest :=
      if state.terminal false 1 then [sourceFailuresStreamError state.diagnostics false]
      else followTargetItems state later events
    match event with
    | .record record =>
      match recordValue record with
      | .ok value => .chunk value :: rest
      | .error message => [streamError "protocol" message false 1]
    | .sourceFailed diagnostic => .chunk (sourceErrorValue diagnostic) :: rest

/-- Follows the targets of a stream. -/
def followTargetsStream :
    List (Except String Target × SourceCatalog × List (List Round)) → List StreamRecord
  | [] => []
  | (.error message, _, _) :: _ => [streamError "invalid_query" message false 2]
  | (.ok target, catalog, polls) :: targets =>
    followTargetItems .start (followTargetsStream targets) (followEvents catalog limits target polls)

end

/-! ## Streams behind one another -/

/-- An item is an error. -/
def StreamRecord.isError : StreamRecord → Bool
  | chunk _ => false
  | error _ _ _ _ => true

/-- The items of a stream, and of a later one unless the first fails. -/
def unlessFailed (items later : List StreamRecord) : List StreamRecord :=
  items ++ if items.any StreamRecord.isError then [] else later

/-- One chunk more. -/
lemma unlessFailed_chunk (data : Json) (items later : List StreamRecord) :
    unlessFailed (.chunk data :: items) later = .chunk data :: unlessFailed items later := rfl

/-- Streams behind one another, up to the first that fails. -/
def untilFailed : List (List StreamRecord) → List StreamRecord
  | [] => []
  | items :: streams => unlessFailed items (untilFailed streams)

/-- No item is an error, the last one apart. -/
def FailsLastOnly (items : List StreamRecord) : Prop :=
  ∀ item ∈ items.dropLast, item.isError = false

/-- Streams that only fail at their ends, behind one another. -/
lemma failsLastOnly_untilFailed {streams : List (List StreamRecord)}
    (h : ∀ items ∈ streams, FailsLastOnly items) : FailsLastOnly (untilFailed streams) := by
  induction streams with
  | nil => exact fun item hitem => absurd hitem List.not_mem_nil
  | cons items streams ih =>
    rw [untilFailed, unlessFailed]
    cases hfailed : items.any StreamRecord.isError with
    | true =>
      rw [if_pos rfl, List.append_nil]
      exact h items (List.mem_cons_self ..)
    | false =>
      rw [if_neg (by simp)]
      have hrest := ih fun other hother => h other (List.mem_cons_of_mem _ hother)
      have hnone : ∀ item ∈ items, item.isError = false := by simpa using hfailed
      intro item hitem
      generalize untilFailed streams = later at hrest hitem
      cases later with
      | nil =>
        rw [List.append_nil] at hitem
        exact hnone item (List.mem_of_mem_dropLast hitem)
      | cons next later =>
        rw [List.dropLast_append_of_ne_nil (List.cons_ne_nil _ _)] at hitem
        rcases List.mem_append.mp hitem with hitem | hitem
        · exact hnone item hitem
        · exact hrest item hitem

/-! ## The law -/

section

variable [ExternalParsers]

/-- The items of a target that is fetched alone. -/
def fetchItems (limits : EngineLimits) (decodeError : Json → String) :
    Except String Target × SourceCatalog → List StreamRecord
  | (.ok target, catalog) => (fetchCommand catalog limits decodeError target).items
  | (.error message, _) => [streamError "invalid_query" message false 2]

/-- The items of a target that is followed alone. -/
def followItems (limits : EngineLimits) :
    Except String Target × SourceCatalog × List (List Round) → List StreamRecord
  | (.ok target, catalog, polls) =>
    searchRecordStream false 1 (followEvents catalog limits target polls)
  | (.error message, _, _) => [streamError "invalid_query" message false 2]

/-- The items for the events of one target are those of the target alone, and then the later ones
unless it fails. -/
lemma followTargetItems_eq (state : RecordStreamState) (later : List StreamRecord)
    (events : List EngineEvent) :
    followTargetItems state later events =
      unlessFailed (searchRecordStream.go false 1 state events) later := by
  induction events generalizing state with
  | nil => rfl
  | cons event events ih =>
    have hrest : (if (state.observe event).terminal false 1 = true then
          [sourceFailuresStreamError (state.observe event).diagnostics false]
        else followTargetItems (state.observe event) later events) =
          unlessFailed (if (state.observe event).terminal false 1 = true then
              [sourceFailuresStreamError (state.observe event).diagnostics false]
            else searchRecordStream.go false 1 (state.observe event) events) later := by
      split
      · rfl
      · exact ih _
    rw [followTargetItems.eq_def, searchRecordStream.go.eq_def]
    dsimp only
    rw [hrest]
    cases event with
    | record record =>
      dsimp only
      cases recordValue record with
      | ok value => exact (unlessFailed_chunk ..).symm
      | error message => rfl
    | sourceFailed diagnostic => exact (unlessFailed_chunk ..).symm

/-- Only the last item of a stream is an error. -/
lemma failsLastOnly_go (state : RecordStreamState) (events : List EngineEvent) :
    FailsLastOnly (searchRecordStream.go false 1 state events) := by
  induction events generalizing state with
  | nil => exact fun item hitem => absurd hitem List.not_mem_nil
  | cons event events ih =>
    have hrest : ∀ value : Json, FailsLastOnly
        (.chunk value :: if (state.observe event).terminal false 1 = true then
            [sourceFailuresStreamError (state.observe event).diagnostics false]
          else searchRecordStream.go false 1 (state.observe event) events) := by
      intro value item hitem
      have hlater := ih (state.observe event)
      split at hitem
      · rw [List.mem_singleton.mp hitem]
        rfl
      · generalize searchRecordStream.go _ _ _ _ = later at hitem hlater
        cases later with
        | nil => cases hitem
        | cons next later =>
          rcases List.mem_cons.mp hitem with rfl | hitem
          · rfl
          · exact hlater item hitem
    rw [searchRecordStream.go.eq_def]
    cases event with
    | record record =>
      dsimp only
      cases recordValue record with
      | ok value => exact hrest value
      | error message => exact fun item hitem => absurd hitem List.not_mem_nil
    | sourceFailed diagnostic => exact hrest _

/-- A stream that has seen a record goes on to its end. -/
lemma go_of_sawRecord {state : RecordStreamState} (hsaw : state.sawRecord = true)
    {events : List EngineEvent}
    (hvalid : ∀ record, .record record ∈ events → record.validate = .ok ()) :
    searchRecordStream.go false 1 state events = events.map chunkOf := by
  induction events generalizing state with
  | nil => rfl
  | cons event events ih =>
    have hsaw' : (state.observe event).sawRecord = true := by
      cases event with
      | record record => rfl
      | sourceFailed diagnostic => exact hsaw
    have hgoing : (state.observe event).terminal false 1 = false := by
      simp [RecordStreamState.terminal, hsaw']
    rw [searchRecordStream_go_cons false 1 state events
      fun record h => hvalid record (by simp [h]), if_neg (by simp [hgoing]),
      ih hsaw' fun record h => hvalid record (List.mem_cons_of_mem _ h), List.map_cons]

/-- The items of a target that is followed alone: the chunks of its events, and an error if the
first of them is a failure. -/
lemma followItems_ok (catalog : SourceCatalog) (limits : EngineLimits) (target : Target)
    (polls : List (List Round)) :
    followItems limits (.ok target, catalog, polls) =
      match followEvents catalog limits target polls with
      | .sourceFailed diagnostic :: _ =>
        [.chunk (sourceErrorValue diagnostic), sourceFailuresStreamError [diagnostic] false]
      | events => events.map chunkOf := by
  have hvalid : ∀ record, .record record ∈ followEvents catalog limits target polls →
      record.validate = .ok () := fun record => validate_of_mem_emitted
  rw [followItems]
  generalize followEvents catalog limits target polls = events at hvalid
  cases events with
  | nil => rfl
  | cons event events =>
    cases event with
    | sourceFailed diagnostic => rfl
    | record record =>
      have hgoing : (RecordStreamState.start.observe (.record record)).terminal false 1 = false :=
        rfl
      rw [searchRecordStream, searchRecordStream_go_cons false 1 .start events
        fun other h => hvalid other (by simp [h]), if_neg (by simp [hgoing]),
        go_of_sawRecord rfl fun other h => hvalid other (List.mem_cons_of_mem _ h)]
      rfl

/-- The item of a target that is fetched alone. -/
lemma fetchItems_ok (catalog : SourceCatalog) (limits : EngineLimits)
    (decodeError : Json → String) (target : Target) :
    fetchItems limits decodeError (.ok target, catalog) =
      [match fetch limits decodeError catalog target with
        | .ok record => .chunk record.toJson
        | .error error => engineErrorRecord error] := by
  rw [fetchItems, fetchCommand]
  cases hfetch : fetch limits decodeError catalog target with
  | error error =>
    dsimp only
    rw [items_engineErrorResult]
  | ok record =>
    obtain ⟨-, -, -, -, -, -, -, hvalid, -⟩ := fetch_ok hfetch
    dsimp only
    rw [recordResult, recordValue, hvalid]
    rfl

/-- Fetching targets one after the other. -/
lemma fetchTargetsStream_eq (limits : EngineLimits) (decodeError : Json → String)
    (targets : List (Except String Target × SourceCatalog)) :
    fetchTargetsStream limits decodeError targets =
      untilFailed (targets.map (fetchItems limits decodeError)) := by
  induction targets with
  | nil => rfl
  | cons target targets ih =>
    obtain ⟨target, catalog⟩ := target
    rw [List.map_cons, untilFailed]
    cases target with
    | error message => rfl
    | ok target =>
      rw [fetchTargetsStream, fetchItems, fetchCommand]
      cases fetch limits decodeError catalog target with
      | error error =>
        dsimp only
        rw [items_engineErrorResult]
        cases error <;> rfl
      | ok record =>
        dsimp only
        rw [recordResult]
        cases recordValue record with
        | ok value => exact congrArg _ ih
        | error message => rfl

/-- Following targets one after the other. -/
lemma followTargetsStream_eq (limits : EngineLimits)
    (targets : List (Except String Target × SourceCatalog × List (List Round))) :
    followTargetsStream limits targets = untilFailed (targets.map (followItems limits)) := by
  induction targets with
  | nil => rfl
  | cons target targets ih =>
    obtain ⟨target, catalog, polls⟩ := target
    rw [List.map_cons, untilFailed, ← ih]
    cases target with
    | error message => rfl
    | ok target => exact followTargetItems_eq _ _ _

/-- **A stream of targets** is answered as the single targets are: whatever the tools do and
whenever their events become available, the items of `fetch` and of `follow` are those that the
command gives for each target alone at its turn, one target after the other, up to the first that
fails, and nothing after its error. A fetched target fails exactly when the engine does not fetch a record, and
a followed one exactly when its first event is a failure.

**Proof sketch.** Every target adds its items and those of the later targets unless it fails
(`followTargetItems_eq`). What the engine fetches or emits is valid, so no record is refused. -/
theorem target_streams_law (limits : EngineLimits) (decodeError : Json → String) :
    (∀ targets, fetchTargetsStream limits decodeError targets =
        untilFailed (targets.map (fetchItems limits decodeError)) ∧
      FailsLastOnly (fetchTargetsStream limits decodeError targets)) ∧
    (∀ targets, followTargetsStream limits targets =
        untilFailed (targets.map (followItems limits)) ∧
      FailsLastOnly (followTargetsStream limits targets)) ∧
    (∀ target catalog, fetchItems limits decodeError (.ok target, catalog) =
      [match fetch limits decodeError catalog target with
        | .ok record => .chunk record.toJson
        | .error error => engineErrorRecord error]) ∧
    ∀ target catalog polls, followItems limits (.ok target, catalog, polls) =
      match followEvents catalog limits target polls with
      | .sourceFailed diagnostic :: _ =>
        [.chunk (sourceErrorValue diagnostic), sourceFailuresStreamError [diagnostic] false]
      | events => events.map chunkOf := by
  refine ⟨fun targets => ⟨fetchTargetsStream_eq .., ?_⟩,
    fun targets => ⟨followTargetsStream_eq .., ?_⟩, fun target catalog => fetchItems_ok ..,
    fun target catalog polls => followItems_ok ..⟩
  · rw [fetchTargetsStream_eq]
    refine failsLastOnly_untilFailed fun items hitems => ?_
    obtain ⟨⟨target, catalog⟩, -, rfl⟩ := List.mem_map.mp hitems
    cases target with
    | ok target =>
      rw [fetchItems_ok]
      exact fun item hitem => absurd hitem List.not_mem_nil
    | error message => exact fun item hitem => absurd hitem List.not_mem_nil
  · rw [followTargetsStream_eq]
    refine failsLastOnly_untilFailed fun items hitems => ?_
    obtain ⟨⟨target, catalog, polls⟩, -, rfl⟩ := List.mem_map.mp hitems
    cases target with
    | ok target => exact failsLastOnly_go _ _
    | error message => exact fun item hitem => absurd hitem List.not_mem_nil

end

end Comsat
