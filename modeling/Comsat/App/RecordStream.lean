import Comsat.Engine.Invoke
import Comsat.Engine.Schedule

set_option relaxedAutoImplicit false
set_option autoImplicit false

/-!
# The record stream of a search

The commands `search` and `follow` turn the events of the engine into the items of a record
stream: one chunk for every event, and an error item when the search as a whole has failed.

## Main definitions

* `errorCode`, `sourceErrorValue`, `sourceFailuresStreamError` — how failures are written.
* `RecordStreamState`, `searchRecordStream` — the stream and what it remembers.
* `StrictLaw` — what strict mode promises of a stream.

## Main results

* `searchRecordStream_eq` — the items are those of the events up to the first point where the
  stream has failed.
* `searchRecordStream_strict` — in strict mode this point is the very first event.
* `strictLaw_iff` — exactly when strict mode keeps its promise.

## Design

* The fields of the objects are listed in the order in which they are written.
-/

namespace Comsat

/-! ## Items -/

/-- An error item. -/
def streamError (code message : String) (retryable : Bool) (exitCode : ℕ) : StreamRecord :=
  .error code message retryable (some exitCode)

/-- Whether trying again may help. -/
def retryable : ErrorClass → Bool
  | .rateLimit | .timeout => true
  | _ => false

/-- The codes of refused access. -/
def accessErrorCode : ErrorClass → Option String
  | .authentication => some "authentication"
  | .authorization => some "authorization"
  | _ => none

/-- The codes of requests that cannot be answered. -/
def queryErrorCode : ErrorClass → Option String
  | .invalidQuery => some "invalid_query"
  | .notFound => some "not_found"
  | .unsupported => some "unsupported"
  | _ => none

/-- The codes of failures on the way. -/
def upstreamErrorCode : ErrorClass → Option String
  | .rateLimit => some "rate_limit"
  | .upstream => some "upstream"
  | .timeout => some "timeout"
  | .cancelled => some "cancelled"
  | .protocol => some "protocol"
  | _ => none

/-- The code of a class. -/
def errorCode (c : ErrorClass) : String :=
  (accessErrorCode c <|> queryErrorCode c <|> upstreamErrorCode c).getD "internal"

/-- The code a stream writes for a class is the one the class is read back from. -/
lemma errorCode_eq (c : ErrorClass) : errorCode c = c.code := by
  cases c <;> rfl

/-- A diagnostic as it is written. -/
def diagnosticValue (diagnostic : EngineDiagnostic) : Json :=
  .obj [("class", .str diagnostic.errorClass.code), ("message", .str diagnostic.message),
    ("retry_after_seconds", .optNat diagnostic.retryAfterSeconds),
    ("source", .str diagnostic.source.value)]

/-- The chunk of a diagnostic. -/
def sourceErrorValue (diagnostic : EngineDiagnostic) : Json :=
  .obj [("diagnostic", diagnosticValue diagnostic), ("type", .str "source_error")]

/-- The code of the error that ends a failed stream. -/
def sourceFailuresCode (diagnostics : List EngineDiagnostic) (strict : Bool) : String :=
  if strict then "partial_failure"
  else
    match diagnostics with
    | [diagnostic] => errorCode diagnostic.errorClass
    | _ => "source_failure"

/-- The message of the error that ends a failed stream. -/
def sourceFailuresMessage (diagnostics : List EngineDiagnostic) (strict : Bool) : String :=
  let message :=
    if strict then "one or more sources failed" else "all selected sources failed"
  (Json.obj [("diagnostics", .arr (diagnostics.map diagnosticValue)),
    ("message", .str message)]).compact

/-- The error that ends a failed stream. -/
def sourceFailuresStreamError (diagnostics : List EngineDiagnostic) (strict : Bool) :
    StreamRecord :=
  streamError (sourceFailuresCode diagnostics strict) (sourceFailuresMessage diagnostics strict)
    (diagnostics.any fun diagnostic => retryable diagnostic.errorClass) (if strict then 3 else 1)

/-! ## The stream -/

/-- What a stream remembers. -/
structure RecordStreamState where
  sawRecord : Bool
  failedSources : Finset SourceId
  diagnostics : List EngineDiagnostic

namespace RecordStreamState

/-- Nothing has happened yet. -/
def start : RecordStreamState := ⟨false, ∅, []⟩

/-- Remembers an event. -/
def observe (state : RecordStreamState) : EngineEvent → RecordStreamState
  | .record _ => { state with sawRecord := true }
  | .sourceFailed diagnostic =>
    { state with
      failedSources := insert diagnostic.source state.failedSources
      diagnostics := state.diagnostics ++ [diagnostic] }

/-- Whether the stream has failed. -/
def terminal (state : RecordStreamState) (strict : Bool) (expectedSources : ℕ) : Bool :=
  strict || (!state.sawRecord && (0 < expectedSources &&
    expectedSources ≤ state.failedSources.card))

/-- What a stream remembers after a sequence of events: whether it has seen a record, the sources
that have failed, and their diagnostics in order. -/
lemma foldl_observe (events : List EngineEvent) :
    ((events.foldl observe start).sawRecord = true ↔ ∃ record, .record record ∈ events) ∧
    (∀ source, source ∈ (events.foldl observe start).failedSources ↔
      ∃ diagnostic, .sourceFailed diagnostic ∈ events ∧ diagnostic.source = source) ∧
    (events.foldl observe start).diagnostics = events.filterMap EngineEvent.failure? := by
  induction events using List.reverseRecOn with
  | nil => simp [start]
  | append_singleton events event ih =>
    obtain ⟨hsaw, hfailed, hdiagnostics⟩ := ih
    rw [List.foldl_append]
    cases event with
    | record record =>
      refine ⟨?_, fun source => ?_, ?_⟩
      · simp only [List.foldl_cons, List.foldl_nil, observe, true_iff]
        exact ⟨record, by simp⟩
      · simpa [observe] using hfailed source
      · simpa [observe, List.filterMap_cons, EngineEvent.failure?] using hdiagnostics
    | sourceFailed diagnostic =>
      refine ⟨?_, fun source => ?_, ?_⟩
      · simpa [observe] using hsaw
      · simp only [List.foldl_cons, List.foldl_nil, observe, Finset.mem_insert, hfailed]
        constructor
        · rintro (rfl | ⟨other, hmem, rfl⟩)
          · exact ⟨diagnostic, by simp, rfl⟩
          · exact ⟨other, by simp [hmem], rfl⟩
        · rintro ⟨other, hmem, rfl⟩
          obtain hmem | heq := List.mem_append.mp hmem
          · exact .inr ⟨other, hmem, rfl⟩
          · obtain rfl : other = diagnostic := by simpa using heq
            exact .inl rfl
      · simp [observe, hdiagnostics, EngineEvent.failure?]

end RecordStreamState

section

variable [ExternalParsers]

/-- The chunk of a record, which is checked once more. -/
def recordValue (record : Record) : Except String Json :=
  match record.validate with
  | .ok () => .ok record.toJson
  | .error error => .error error.message

/-- The items of a stream of events. -/
def searchRecordStream (strict : Bool) (expectedSources : ℕ) (events : List EngineEvent) :
    List StreamRecord :=
  go .start events
where
  /-- The items after a state was reached. -/
  go (state : RecordStreamState) : List EngineEvent → List StreamRecord
    | [] => []
    | event :: events =>
      let state := state.observe event
      let later :=
        if state.terminal strict expectedSources then
          [sourceFailuresStreamError state.diagnostics strict]
        else go state events
      match event with
      | .record record =>
        match recordValue record with
        | .ok value => .chunk value :: later
        | .error message => [streamError "protocol" message false 1]
      | .sourceFailed diagnostic => .chunk (sourceErrorValue diagnostic) :: later

/-- The chunk of an event. -/
def chunkOf : EngineEvent → StreamRecord
  | .record record => .chunk record.toJson
  | .sourceFailed diagnostic => .chunk (sourceErrorValue diagnostic)

/-- The error item of a stream that has failed. -/
def failureItem (strict : Bool) (expectedSources : ℕ) (state : RecordStreamState) :
    List StreamRecord :=
  if state.terminal strict expectedSources then
    [sourceFailuresStreamError state.diagnostics strict]
  else []

/-- A valid event gives its chunk, and the error if the stream fails with it. -/
lemma searchRecordStream_go_cons (strict : Bool) (expectedSources : ℕ) (state : RecordStreamState)
    {event : EngineEvent} (events : List EngineEvent)
    (hvalid : ∀ record, event = .record record → record.validate = .ok ()) :
    searchRecordStream.go strict expectedSources state (event :: events) =
      chunkOf event ::
        if (state.observe event).terminal strict expectedSources then
          [sourceFailuresStreamError (state.observe event).diagnostics strict]
        else searchRecordStream.go strict expectedSources (state.observe event) events := by
  cases event with
  | record record => simp [searchRecordStream.go, recordValue, hvalid record rfl, chunkOf]
  | sourceFailed diagnostic => simp [searchRecordStream.go, chunkOf]

/-- The items of a stream from a state, when its records are valid and it does not fail before its
last event: one chunk for every event, and the error if it fails at the last. -/
lemma searchRecordStream_go (strict : Bool) (expectedSources : ℕ) (state : RecordStreamState)
    (event : EngineEvent) (events : List EngineEvent)
    (hvalid : ∀ record, .record record ∈ event :: events → record.validate = .ok ())
    (hfirst : ∀ before next after, event :: events = before ++ next :: after → after ≠ [] →
      ((before ++ [next]).foldl RecordStreamState.observe state).terminal strict
        expectedSources = false) :
    searchRecordStream.go strict expectedSources state (event :: events) =
      (event :: events).map chunkOf ++ failureItem strict expectedSources
        ((event :: events).foldl RecordStreamState.observe state) := by
  induction events generalizing state event with
  | nil =>
    rw [searchRecordStream_go_cons strict expectedSources state []
      fun record h => hvalid record (by simp [h])]
    rfl
  | cons next events ih =>
    have hnot := hfirst [] event (next :: events) rfl (by simp)
    simp only [List.nil_append, List.foldl_cons, List.foldl_nil] at hnot
    rw [searchRecordStream_go_cons strict expectedSources state _
      fun record h => hvalid record (by simp [h]), if_neg (by simp [hnot]), ih]
    · rfl
    · exact fun record h => hvalid record (List.mem_cons_of_mem _ h)
    · intro before other after hsplit hafter
      exact hfirst (event :: before) other after (by simp [hsplit]) hafter

/-- **The items of a stream.** When its records are valid and it does not fail before its last
event, it has one chunk for every event, and the error if it fails at the last. -/
theorem searchRecordStream_eq {strict : Bool} {expectedSources : ℕ} {events : List EngineEvent}
    (hvalid : ∀ record, .record record ∈ events → record.validate = .ok ())
    (hfirst : ∀ before next after, events = before ++ next :: after → after ≠ [] →
      ((before ++ [next]).foldl RecordStreamState.observe .start).terminal strict
        expectedSources = false) :
    searchRecordStream strict expectedSources events =
      events.map chunkOf ++
        if events.isEmpty then []
        else failureItem strict expectedSources
          (events.foldl RecordStreamState.observe .start) := by
  cases events with
  | nil => rfl
  | cons event events =>
    exact searchRecordStream_go strict expectedSources .start event events hvalid hfirst

/-! ## Strict mode -/

/-- An item is the error of a partial failure. -/
def IsPartialFailure (item : StreamRecord) : Prop :=
  ∃ message retryable, item = .error "partial_failure" message retryable (some 3)

/-- What strict mode promises of the items for a sequence of events. -/
structure StrictLaw (events : List EngineEvent) (items : List StreamRecord) : Prop where
  /-- The stream ends with the error of a partial failure exactly when a source has failed. -/
  failure : (∃ item ∈ items.getLast?, IsPartialFailure item) ↔
    ∃ diagnostic, .sourceFailed diagnostic ∈ events
  /-- The records before the first failure are emitted before the error. -/
  before : ∀ (records : List Record) diagnostic after,
    events = records.map .record ++ .sourceFailed diagnostic :: after →
    records.map (fun record => chunkOf (.record record)) <+: items.dropLast
  /-- When no source fails, every record is emitted, in order, and nothing else. -/
  complete : (∀ diagnostic, .sourceFailed diagnostic ∉ events) → items = events.map chunkOf

/-- In strict mode the stream ends after its first event. -/
theorem searchRecordStream_strict (expectedSources : ℕ) (event : EngineEvent)
    (events : List EngineEvent) :
    searchRecordStream true expectedSources (event :: events) =
      match event with
      | .record record =>
        match recordValue record with
        | .ok value => [.chunk value, sourceFailuresStreamError [] true]
        | .error message => [streamError "protocol" message false 1]
      | .sourceFailed diagnostic =>
        [.chunk (sourceErrorValue diagnostic), sourceFailuresStreamError [diagnostic] true] := by
  cases event <;> rfl

omit [ExternalParsers] in
/-- The error that ends a failed stream in strict mode is that of a partial failure. -/
lemma isPartialFailure_sourceFailuresStreamError (diagnostics : List EngineDiagnostic) :
    IsPartialFailure (sourceFailuresStreamError diagnostics true) :=
  ⟨_, _, rfl⟩

omit [ExternalParsers] in
/-- Events with a failure have a first one. -/
lemma exists_first_failure {events : List EngineEvent} {diagnostic : EngineDiagnostic}
    (h : .sourceFailed diagnostic ∈ events) :
    ∃ (records : List Record) (first : EngineDiagnostic) (after : List EngineEvent),
      events = records.map .record ++ .sourceFailed first :: after := by
  induction events with
  | nil => simp at h
  | cons event events ih =>
    cases event with
    | sourceFailed first => exact ⟨[], first, events, rfl⟩
    | record record =>
      obtain ⟨records, first, after, rfl⟩ := ih (by simpa using h)
      exact ⟨record :: records, first, after, rfl⟩

/-- Strict mode keeps its promise when a failure comes first. -/
lemma strictLaw_of_failure (expectedSources : ℕ) (diagnostic : EngineDiagnostic)
    (later : List EngineEvent) :
    StrictLaw (.sourceFailed diagnostic :: later)
      (searchRecordStream true expectedSources (.sourceFailed diagnostic :: later)) where
  failure := iff_of_true
    ⟨sourceFailuresStreamError [diagnostic] true, by simp [searchRecordStream_strict],
      isPartialFailure_sourceFailuresStreamError _⟩
    ⟨diagnostic, List.mem_cons_self ..⟩
  before records first after hsplit := by
    cases records with
    | nil => simp
    | cons record records => simp at hsplit
  complete hnone := absurd (List.mem_cons_self ..) (hnone diagnostic)

/-- Strict mode keeps its promise when a failure comes after one valid record. -/
lemma strictLaw_of_record (expectedSources : ℕ) {record : Record}
    (hvalid : record.validate = .ok ()) (diagnostic : EngineDiagnostic)
    (later : List EngineEvent) :
    StrictLaw (.record record :: .sourceFailed diagnostic :: later)
      (searchRecordStream true expectedSources
        (.record record :: .sourceFailed diagnostic :: later)) where
  failure := iff_of_true
    ⟨_, by simp [searchRecordStream_strict, recordValue, hvalid],
      isPartialFailure_sourceFailuresStreamError []⟩
    ⟨diagnostic, by simp⟩
  before records first after hsplit := by
    match records with
    | [] => simp at hsplit
    | [only] =>
      obtain rfl : record = only := by simpa using congrArg List.head? hsplit
      simp [searchRecordStream_strict, recordValue, hvalid, chunkOf]
    | _ :: _ :: _ => simp at hsplit
  complete hnone := absurd (by simp) (hnone diagnostic)

/-- Where strict mode keeps its promise after a record, the record is valid and a failure
follows. -/
lemma failure_of_strictLaw {expectedSources : ℕ} {record : Record} {events : List EngineEvent}
    (h : StrictLaw (.record record :: events)
      (searchRecordStream true expectedSources (.record record :: events))) :
    record.validate = .ok () ∧ ∃ diagnostic later, events = .sourceFailed diagnostic :: later := by
  rw [searchRecordStream_strict] at h
  cases hvalid : record.validate with
  | error error =>
    simp only [recordValue, hvalid] at h
    have hnone : ∀ diagnostic, .sourceFailed diagnostic ∉ EngineEvent.record record :: events := by
      intro diagnostic hmem
      obtain ⟨item, hitem, message, again, rfl⟩ := h.failure.mpr ⟨diagnostic, hmem⟩
      simp [streamError] at hitem
    have hitems := h.complete hnone
    simp [streamError, chunkOf] at hitems
  | ok _ =>
    simp only [recordValue, hvalid] at h
    refine ⟨rfl, ?_⟩
    obtain ⟨diagnostic, hmem⟩ := h.failure.mp
      ⟨_, by simp, isPartialFailure_sourceFailuresStreamError []⟩
    obtain ⟨records, first, after, rfl⟩ := exists_first_failure
      (by simpa using hmem : .sourceFailed diagnostic ∈ events)
    have hbefore := h.before (record :: records) first after rfl
    have hlength := hbefore.length_le
    obtain rfl : records = [] := by simpa using hlength
    exact ⟨first, after, rfl⟩

/-- **When strict mode keeps its promise.** Exactly when the engine emits nothing, or a failure
first, or one valid record and then a failure: the stream ends after the first event, whether it is
a failure or not. -/
theorem strictLaw_iff (expectedSources : ℕ) (events : List EngineEvent) :
    StrictLaw events (searchRecordStream true expectedSources events) ↔
      events = [] ∨
      (∃ diagnostic later, events = .sourceFailed diagnostic :: later) ∨
      ∃ record diagnostic later, record.validate = .ok () ∧
        events = .record record :: .sourceFailed diagnostic :: later := by
  constructor
  · intro h
    match events with
    | [] => exact .inl rfl
    | .sourceFailed diagnostic :: later => exact .inr (.inl ⟨diagnostic, later, rfl⟩)
    | .record record :: events =>
      obtain ⟨hvalid, diagnostic, later, rfl⟩ := failure_of_strictLaw h
      exact .inr (.inr ⟨record, diagnostic, later, hvalid, rfl⟩)
  · rintro (rfl | ⟨diagnostic, later, rfl⟩ | ⟨record, diagnostic, later, hvalid, rfl⟩)
    · exact ⟨by simp [searchRecordStream, searchRecordStream.go], by simp, fun _ => rfl⟩
    · exact strictLaw_of_failure expectedSources diagnostic later
    · exact strictLaw_of_record expectedSources hvalid diagnostic later

end

/-- A valid record of a source. -/
def sampleRecord : Record :=
  ⟨⟨"1", RecordId.isValid_one⟩, ⟨"hacker-news", SourceId.isValid_hackerNews⟩, "story",
    "https://example.com/", none, none, none, none, none, .obj []⟩

/-- A search whose only event is a valid record ends with the error of a partial failure. -/
theorem strictLaw_fails :
    letI : ExternalParsers := .ofHost "example.com"
    sampleRecord.validate = .ok () ∧
    ¬StrictLaw [.record sampleRecord] (searchRecordStream true 1 [.record sampleRecord]) := by
  let _ : ExternalParsers := .ofHost "example.com"
  refine ⟨by decide, fun h => ?_⟩
  obtain ⟨_, diagnostic, later, hnil⟩ := failure_of_strictLaw h
  cases hnil

end Comsat
