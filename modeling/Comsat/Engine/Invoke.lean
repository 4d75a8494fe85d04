import Comsat.Engine.Merge
import Comsat.Types.Decode

set_option relaxedAutoImplicit false
set_option autoImplicit false

/-!
# Invocations of sources

A worker calls the tool of a source, reads records from the chunks the tool streams or from the
value it returns, within the budget of the source, and reports at most one failure, last.

## Main definitions

* `OperationInput.arguments` — the arguments a tool is called with.
* `SinkState`, `emitRecordValue`, `emitFinalData` — the budget of an invocation and what accepting
  a value does to it.
* `runSourceOperation` — everything a worker sends.
* `fetch` — one record, without a worker.

## Main results

* `runSourceOperation_shape` — a worker sends valid records of its budget and then at most one
  failure, all of them in the name of its source.
* `fetch_ok` — a fetched record was read from the value of the tool and is valid.

## Design

* A tool streams its chunks one after another: the sink takes them in order.
* What the deserializer says about a value that is no record is a parameter.
-/

namespace Comsat

/-! ## Arguments -/

/-- The arguments of a tool. -/
def OperationInput.arguments : OperationInput → List (String × Json)
  | query value => objectArguments value.toJson
  | target value => objectArguments value.toJson

/-! ## Budgets -/

/-- The largest value of a machine word. -/
def usizeMax : ℕ := 2 ^ 64 - 1

/-- Addition that stays at the largest value. -/
def saturatingAdd (a b : ℕ) : ℕ := min (a + b) usizeMax

/-- How much of its budget an invocation has used, and why it may use no more. -/
structure SinkState where
  records : ℕ
  bytes : ℕ
  budgetError : Option SourceError

/-- Nothing has been used yet. -/
def SinkState.start : SinkState := ⟨0, 0, none⟩

/-- The error of a budget that was exceeded. -/
def budgetError (source : SourceId) (message : String) : SourceError :=
  ⟨source, .unsupported, message, none⟩

section

variable [ExternalParsers] (limits : EngineLimits) (source : SourceId)

/-- Counts a value. The answer says whether the invocation may use no more. -/
def applyBudget (state : SinkState) (data : Json) : Bool × SinkState :=
  let records := saturatingAdd state.records 1
  let bytes := saturatingAdd state.bytes data.byteLength
  let error :=
    if limits.maxRecordsPerSource < records then
      some (budgetError source "source record budget exceeded")
    else state.budgetError
  let error :=
    if limits.maxBytesPerSource < bytes then
      some (budgetError source "source byte budget exceeded")
    else error
  (error.isSome, ⟨records, bytes, error⟩)

/-- Takes a value that the tool gave: a valid record within the budget is sent. -/
def emitRecordValue (state : SinkState) (data : Json) : SinkState × List WorkerEvent :=
  match applyBudget limits source state data with
  | (true, state) => (state, [])
  | (false, state) =>
    match Record.fromValue data with
    | some record =>
      match record.validate with
      | .ok () => (state, [.record source record])
      | .error _ =>
        ({ state with
          budgetError := some ⟨source, .protocol, "source emitted invalid record data", none⟩ }, [])
    | none =>
      ({ state with
        budgetError := some ⟨source, .protocol, "source emitted invalid record data", none⟩ }, [])

/-- Takes the streamed chunks. -/
def emitChunks : SinkState → List Json → SinkState × List WorkerEvent
  | state, [] => (state, [])
  | state, data :: rest =>
    let (state, events) := emitRecordValue limits source state data
    let (state, later) := emitChunks state rest
    (state, events ++ later)

/-- Takes the items of a returned array, up to the first error. -/
def emitItems : SinkState → List Json → SinkState × List WorkerEvent
  | state, [] => (state, [])
  | state, data :: rest =>
    let (state, events) := emitRecordValue limits source state data
    if state.budgetError.isSome then (state, events)
    else
      let (state, later) := emitItems state rest
      (state, events ++ later)

/-- Takes the value a tool returned: an array item by item. -/
def emitFinalData (state : SinkState) (data : Json) : SinkState × List WorkerEvent :=
  match data with
  | .arr records => emitItems limits source state records
  | value => emitRecordValue limits source state value

/-- The failure an error leads to. -/
def failedEvent (error : SourceError) : WorkerEvent := .failed (.ofError error)

/-- What is sent once the tool has ended. -/
def finishStreamOutcome (state : SinkState) (outcome : ToolCallOutcome) : List WorkerEvent :=
  match state.budgetError with
  | some error => [failedEvent error]
  | none =>
    match outcome with
    | .ok data =>
      if state.records = 0 then
        let (state, events) := emitFinalData limits source state data
        events ++ (state.budgetError.map failedEvent).toList
      else []
    | .error code message _ _ => [failedEvent ⟨source, errorClass code, message, none⟩]

/-- Everything the worker of a planned source sends. -/
def runSourceOperation (planned : PlannedSource) : List WorkerEvent :=
  match planned.source.descriptor.toolName planned.operation with
  | none => []
  | some tool =>
    let run := planned.source.catalog tool planned.input.arguments
    let (state, events) := emitChunks limits planned.source.id .start run.chunks
    events ++ finishStreamOutcome limits planned.source.id state run.outcome

/-! ## Fetches -/

variable (decodeError : Json → String)

/-- Reads the record that a fetch returned. -/
def deserializeRecord (data : Json) : Except EngineError Record :=
  if limits.maxBytesPerSource < data.byteLength then
    .error (.source ⟨source, .unsupported, "fetch byte budget exceeded", none⟩)
  else
    match Record.fromValue data with
    | none => .error (.source ⟨source, .protocol, decodeError data, none⟩)
    | some record =>
      match record.validate with
      | .error error => .error (.source ⟨source, .protocol, error.message, none⟩)
      | .ok () => .ok record

/-- What the end of a tool amounts to for a fetch. -/
def finishFetchOutcome (outcome : ToolCallOutcome) : Except EngineError Record :=
  match outcome with
  | .ok data => deserializeRecord limits source decodeError data
  | .error code message _ _ => .error (.source ⟨source, errorClass code, message, none⟩)

/-- Fetches the record of a target. -/
def fetch (catalog : SourceCatalog) (target : Target) : Except EngineError Record :=
  match catalog.source target.source with
  | none => .error (.sourceNotFound target.source)
  | some source =>
    match source.descriptor.toolName .fetch with
    | none => .error (.unsupported target.source OperationKind.fetch.asStr)
    | some tool =>
      finishFetchOutcome limits target.source decodeError
        (source.catalog tool (objectArguments target.toJson)).outcome

end

/-! ## What a worker sends -/

section

variable [ExternalParsers] {limits : EngineLimits} {source : SourceId}

/-- The bytes of the values that were accepted. -/
def acceptedBytes (accepted : List (Json × Record)) : ℕ :=
  (accepted.map fun entry => entry.1.byteLength).sum

/-- The values that were accepted, with the records read from them, and what is left of the
budget. -/
structure Accepts (limits : EngineLimits) (source : SourceId) (accepted : List (Json × Record))
    (state : SinkState) : Prop where
  /-- The records were read from the values and are valid. -/
  decoded : ∀ entry ∈ accepted,
    Record.fromValue entry.1 = some entry.2 ∧ entry.2.validate = .ok ()
  /-- The records are within the budget. -/
  records : min accepted.length usizeMax ≤ limits.maxRecordsPerSource
  /-- The bytes are within the budget. -/
  bytes : min (acceptedBytes accepted) usizeMax ≤ limits.maxBytesPerSource
  /-- The counters count what was accepted. -/
  exact : state.budgetError = none →
    state.records = min accepted.length usizeMax ∧
    state.bytes = min (acceptedBytes accepted) usizeMax
  /-- An error is one of the source. -/
  owner : ∀ error ∈ state.budgetError, error.source = source

/-- The events of the accepted records. -/
def acceptedEvents (source : SourceId) (accepted : List (Json × Record)) : List WorkerEvent :=
  accepted.map fun entry => .record source entry.2

/-- At first nothing is accepted. -/
lemma Accepts.start : Accepts limits source [] .start where
  decoded := by simp
  records := by simp
  bytes := by simp [acceptedBytes]
  exact _ := by simp [SinkState.start, acceptedBytes]
  owner := by simp [SinkState.start]

/-- A state with an error of the source has accepted what was accepted before. -/
lemma Accepts.of_error {accepted : List (Json × Record)} {state state' : SinkState}
    (h : Accepts limits source accepted state) {error : SourceError}
    (herror : state'.budgetError = some error) (howner : error.source = source) :
    Accepts limits source accepted state' where
  decoded := h.decoded
  records := h.records
  bytes := h.bytes
  exact hnone := by simp [herror] at hnone
  owner e he := by
    rw [herror] at he
    obtain rfl : error = e := by simpa using he
    exact howner

omit [ExternalParsers] in
/-- Counting a value ends in an error, an earlier one or one of the source, or stays within the
budget. -/
lemma applyBudget_cases (limits : EngineLimits) (source : SourceId) (state : SinkState) (data : Json) :
    (∃ records bytes error, applyBudget limits source state data =
        (true, ⟨records, bytes, some error⟩) ∧
      (error.source = source ∨ state.budgetError = some error)) ∨
    (state.budgetError = none ∧
      saturatingAdd state.records 1 ≤ limits.maxRecordsPerSource ∧
      saturatingAdd state.bytes data.byteLength ≤ limits.maxBytesPerSource ∧
      applyBudget limits source state data =
        (false, ⟨saturatingAdd state.records 1, saturatingAdd state.bytes data.byteLength, none⟩)) := by
  simp only [applyBudget]
  split
  · exact .inl ⟨_, _, _, rfl, .inl rfl⟩
  · rename_i hbytes
    split
    · exact .inl ⟨_, _, _, rfl, .inl rfl⟩
    · rename_i hrecords
      cases herror : state.budgetError with
      | some error => exact .inl ⟨_, _, _, rfl, .inr rfl⟩
      | none => exact .inr ⟨rfl, not_lt.mp hrecords, not_lt.mp hbytes, rfl⟩

/-- Taking a value accepts it or accepts nothing. -/
lemma Accepts.emitRecordValue {accepted : List (Json × Record)} {state : SinkState}
    (h : Accepts limits source accepted state) (data : Json) :
    ∃ more, Accepts limits source (accepted ++ more)
        (Comsat.emitRecordValue limits source state data).1 ∧
      (Comsat.emitRecordValue limits source state data).2 = acceptedEvents source more := by
  rw [Comsat.emitRecordValue]
  obtain ⟨records, bytes, error, heq, howner⟩ | ⟨hnone, hrecords, hbytes, heq⟩ :=
    applyBudget_cases limits source state data
  · refine ⟨[], ?_, by simp [heq, acceptedEvents]⟩
    simp only [heq, List.append_nil]
    exact h.of_error rfl (howner.elim id (h.owner error))
  · simp only [heq]
    obtain ⟨hcount, hsum⟩ := h.exact hnone
    split
    · rename_i record hrecord
      split
      · rename_i hvalid
        refine ⟨[(data, record)], ⟨?_, ?_, ?_, fun _ => ⟨?_, ?_⟩, by simp⟩,
          by simp [acceptedEvents]⟩
        · intro entry hentry
          obtain hentry | rfl := by simpa using hentry
          · exact h.decoded entry hentry
          · exact ⟨hrecord, hvalid⟩
        · rw [hcount, saturatingAdd] at hrecords
          simp only [List.length_append, List.length_singleton]
          omega
        · rw [hsum, saturatingAdd] at hbytes
          simp only [acceptedBytes, List.map_append, List.sum_append, List.map_singleton,
            List.sum_singleton] at hbytes ⊢
          omega
        · simp only [hcount, saturatingAdd, List.length_append, List.length_singleton]
          omega
        · simp only [hsum, saturatingAdd, acceptedBytes, List.map_append, List.sum_append,
            List.map_singleton, List.sum_singleton]
          omega
      · exact ⟨[], by simpa using h.of_error rfl rfl, by simp [acceptedEvents]⟩
    · exact ⟨[], by simpa using h.of_error rfl rfl, by simp [acceptedEvents]⟩

omit [ExternalParsers] in
/-- The events of records accepted one after another. -/
lemma acceptedEvents_append (a b : List (Json × Record)) :
    acceptedEvents source (a ++ b) = acceptedEvents source a ++ acceptedEvents source b := by
  simp [acceptedEvents]

/-- Taking streamed chunks accepts some of them. -/
lemma Accepts.emitChunks {accepted : List (Json × Record)} {state : SinkState}
    (h : Accepts limits source accepted state) (data : List Json) :
    ∃ more, Accepts limits source (accepted ++ more)
        (Comsat.emitChunks limits source state data).1 ∧
      (Comsat.emitChunks limits source state data).2 = acceptedEvents source more := by
  induction data generalizing accepted state with
  | nil => exact ⟨[], by simpa [Comsat.emitChunks] using h, rfl⟩
  | cons value data ih =>
    obtain ⟨first, hfirst, hevents⟩ := h.emitRecordValue value
    obtain ⟨rest, hrest, hlater⟩ := ih hfirst
    refine ⟨first ++ rest, by rw [← List.append_assoc]; exact hrest, ?_⟩
    rw [acceptedEvents_append, ← hevents, ← hlater, Comsat.emitChunks]

/-- Taking the items of an array accepts some of them. -/
lemma Accepts.emitItems {accepted : List (Json × Record)} {state : SinkState}
    (h : Accepts limits source accepted state) (data : List Json) :
    ∃ more, Accepts limits source (accepted ++ more)
        (Comsat.emitItems limits source state data).1 ∧
      (Comsat.emitItems limits source state data).2 = acceptedEvents source more := by
  induction data generalizing accepted state with
  | nil => exact ⟨[], by simpa [Comsat.emitItems] using h, rfl⟩
  | cons value data ih =>
    obtain ⟨first, hfirst, hevents⟩ := h.emitRecordValue value
    obtain ⟨rest, hrest, hlater⟩ := ih hfirst
    rw [Comsat.emitItems]
    generalize Comsat.emitRecordValue limits source state value = emitted at *
    obtain ⟨state', events⟩ := emitted
    dsimp only at hfirst hevents hrest hlater ⊢
    split
    · exact ⟨first, hfirst, hevents⟩
    · refine ⟨first ++ rest, by rw [← List.append_assoc]; exact hrest, ?_⟩
      rw [acceptedEvents_append, ← hevents, ← hlater]

/-- Taking what a tool returned accepts some of it. -/
lemma Accepts.emitFinalData {accepted : List (Json × Record)} {state : SinkState}
    (h : Accepts limits source accepted state) (data : Json) :
    ∃ more, Accepts limits source (accepted ++ more)
        (Comsat.emitFinalData limits source state data).1 ∧
      (Comsat.emitFinalData limits source state data).2 = acceptedEvents source more := by
  cases data with
  | arr records => exact h.emitItems records
  | null => exact h.emitRecordValue _
  | bool value => exact h.emitRecordValue _
  | num literal => exact h.emitRecordValue _
  | str value => exact h.emitRecordValue _
  | obj fields => exact h.emitRecordValue _

/-- What the end of a tool sends: some accepted records and at most one failure. -/
lemma Accepts.finishStreamOutcome {accepted : List (Json × Record)} {state : SinkState}
    (h : Accepts limits source accepted state) (outcome : ToolCallOutcome) :
    ∃ more last, ∃ failure : Option EngineDiagnostic,
      Accepts limits source (accepted ++ more) last ∧
      (∀ diagnostic ∈ failure, diagnostic.source = source) ∧
      Comsat.finishStreamOutcome limits source state outcome =
        acceptedEvents source more ++ (failure.map WorkerEvent.failed).toList := by
  rw [Comsat.finishStreamOutcome.eq_def]
  split
  · rename_i error herror
    exact ⟨[], state, some (.ofError error), by simpa using h,
      by simpa [EngineDiagnostic.ofError] using h.owner error herror, rfl⟩
  · split
    · rename_i data
      split
      · obtain ⟨more, hmore, hevents⟩ := h.emitFinalData data
        refine ⟨more, _, (Comsat.emitFinalData limits source state data).1.budgetError.map
          .ofError, hmore, ?_, ?_⟩
        · intro diagnostic hdiagnostic
          obtain ⟨error, herror, rfl⟩ := Option.mem_map.mp hdiagnostic
          exact hmore.owner error herror
        · simp only [hevents, Option.map_map]
          rfl
      · exact ⟨[], state, none, by simpa using h, by simp, rfl⟩
    · exact ⟨[], state, some (.ofError ⟨source, _, _, none⟩), by simpa using h,
        by simp [EngineDiagnostic.ofError], rfl⟩

/-- **What a worker sends.** Valid records, read from values within the budget of the source, and
then at most one failure, all in the name of the source. -/
theorem runSourceOperation_shape (limits : EngineLimits) (planned : PlannedSource) :
    ∃ accepted state, ∃ failure : Option EngineDiagnostic,
      Accepts limits planned.source.id accepted state ∧
      (∀ diagnostic ∈ failure, diagnostic.source = planned.source.id) ∧
      runSourceOperation limits planned =
        acceptedEvents planned.source.id accepted ++ (failure.map WorkerEvent.failed).toList := by
  rw [runSourceOperation]
  split
  · exact ⟨[], .start, none, .start, by simp, rfl⟩
  · rename_i tool _
    have hstart : Accepts limits planned.source.id [] .start := .start
    obtain ⟨chunks, hchunks, hevents⟩ :=
      hstart.emitChunks (planned.source.catalog tool planned.input.arguments).chunks
    obtain ⟨more, last, failure, hlast, howner, hfinish⟩ := hchunks.finishStreamOutcome
      (planned.source.catalog tool planned.input.arguments).outcome
    refine ⟨chunks ++ more, last, failure, by simpa using hlast, howner, ?_⟩
    rw [acceptedEvents_append, List.append_assoc, ← hfinish, ← hevents]

/-- **What a fetch returns.** A valid record, read from the value of the tool. -/
theorem fetch_ok {decodeError : Json → String} {catalog : SourceCatalog} {target : Target}
    {record : Record} (h : fetch limits decodeError catalog target = .ok record) :
    ∃ source tool data, catalog.source target.source = some source ∧
      source.descriptor.toolName .fetch = some tool ∧
      (source.catalog tool (objectArguments target.toJson)).outcome = .ok data ∧
      Record.fromValue data = some record ∧ record.validate = .ok () ∧
      data.byteLength ≤ limits.maxBytesPerSource := by
  rw [fetch] at h
  split at h
  · cases h
  · rename_i source hsource
    split at h
    · cases h
    · rename_i tool htool
      rw [finishFetchOutcome.eq_def] at h
      split at h
      · rename_i data houtcome
        rw [deserializeRecord] at h
        split at h
        · cases h
        · rename_i hbytes
          split at h
          · cases h
          · rename_i found hfound
            split at h
            · cases h
            · rename_i hvalid
              cases h
              exact ⟨source, tool, data, hsource, htool, houtcome, hfound, hvalid,
                not_lt.mp hbytes⟩
      · cases h

end

end Comsat
