import Comsat.Engine.Invoke
import Comsat.Engine.Metrics
import Comsat.Lib.Machine

set_option relaxedAutoImplicit false
set_option autoImplicit false

/-!
# Accounting of operations

The engine runs searches, follows and fetches side by side and counts what becomes of them. A worker
holds a guard from the start of its operation to its end; a guard that is dropped, with its worker,
its stream or its fetch, counts as a cancelled operation.

## Main definitions

* `WorkerAct`, `operationActs` — what a worker does, with its guard.
* `Accounts` — the metrics, and the guards that were handed out and came back.
* `WorkerFuture.poll`, `MeteredDriver.mapEvent`, `MeteredDriver.stop`, `FetchCall.finish` — the steps
  of a worker, of a stream and of a fetch, with what they count.
* `EngineState`, `EngineAction`, `engine` — any number of streams and fetches over one catalog, in
  any interleaving, with everything dropped at any point.

## Main results

* `sent_operationActs` — what a worker sends is what `runSourceOperation` says.
* `MeteredDriver.forget_mapEvent`, `MeteredDriver.forget_startReadySource` — counting changes nothing
  about what a driver does.
* `operationActs_consumes` — a worker that is not dropped consumes its guard once, on every branch.
* `metrics_conserved` — in every run the counters add up.

## Design

* An action picks the stream, the worker or the fetch that gets on. The order in which a driver
  polls its sources is one of the orders of actions.
* A tool gives any chunks and any outcome, also another one at each call. An event that is sent while
  the stream is being cancelled may come to nothing.
* A guard that is still held when a worker returns is dropped there.
-/

namespace Comsat

/-! ## What a worker does -/

/-- What a worker does, one thing after another. -/
inductive WorkerAct where
  /-- It starts an operation, and holds its guard. -/
  | start (source : SourceId) (operation : OperationKind)
  | send (event : WorkerEvent)
  /-- It consumes its guard. -/
  | finish (outcome : TerminalOutcome)

/-- The event that is sent. -/
def WorkerAct.sent? : WorkerAct → Option WorkerEvent
  | send event => some event
  | _ => none

/-- The end that is counted. -/
def WorkerAct.outcome? : WorkerAct → Option TerminalOutcome
  | finish outcome => some outcome
  | _ => none

/-- A failure is counted and then sent. -/
def failActs (outcome : TerminalOutcome) (error : SourceError) : List WorkerAct :=
  [.finish outcome, .send (failedEvent error)]

section Acts

variable [ExternalParsers] (limits : EngineLimits) (source : SourceId)

/-- What a worker does once its tool has ended. -/
def finishStreamActs (state : SinkState) (outcome : ToolCallOutcome) : List WorkerAct :=
  match state.budgetError with
  | some error => failActs (.ofFailure error.errorClass) error
  | none =>
    match outcome with
    | .ok data =>
      if state.records = 0 then
        let (state, events) := emitFinalData limits source state data
        events.map .send ++
          match state.budgetError with
          | some error => failActs (.ofFailure error.errorClass) error
          | none => [.finish .success]
      else [.finish .success]
    | .error code message _ _ =>
      failActs (.recordFailure (errorClass code)) ⟨source, errorClass code, message, none⟩

/-- What the worker of a planned source does. -/
def operationActs (planned : PlannedSource) (run : ToolRun) : List WorkerAct :=
  match planned.source.descriptor.toolName planned.operation with
  | none => []
  | some _ =>
    let (state, events) := emitChunks limits planned.source.id .start run.chunks
    .start planned.source.id planned.operation :: events.map .send ++
      finishStreamActs limits planned.source.id state run.outcome

omit [ExternalParsers] in
/-- Events that are sent are sent. -/
lemma filterMap_sent_map_send (events : List WorkerEvent) :
    (events.map WorkerAct.send).filterMap WorkerAct.sent? = events := by
  rw [List.filterMap_map]
  exact List.filterMap_some

omit [ExternalParsers] in
/-- Sending counts nothing. -/
lemma filterMap_outcome_map_send (events : List WorkerEvent) :
    (events.map WorkerAct.send).filterMap WorkerAct.outcome? = [] := by
  rw [List.filterMap_map, List.filterMap_eq_nil_iff]
  exact fun _ _ => rfl

/-- What a worker sends once its tool has ended. -/
lemma sent_finishStreamActs (state : SinkState) (outcome : ToolCallOutcome) :
    (finishStreamActs limits source state outcome).filterMap WorkerAct.sent? =
      finishStreamOutcome limits source state outcome := by
  unfold finishStreamActs finishStreamOutcome
  cases state.budgetError with
  | some error => rfl
  | none =>
    cases outcome with
    | error code message retryable exitCode => rfl
    | ok data =>
      dsimp only
      split
      · rw [List.filterMap_append, filterMap_sent_map_send]
        congr 1
        cases (emitFinalData limits source state data).1.budgetError <;> rfl
      · rfl

/-- A worker counts one end once its tool has ended. -/
lemma length_outcomes_finishStreamActs (state : SinkState) (outcome : ToolCallOutcome) :
    ((finishStreamActs limits source state outcome).filterMap WorkerAct.outcome?).length = 1 := by
  unfold finishStreamActs
  cases state.budgetError with
  | some error => rfl
  | none =>
    cases outcome with
    | error code message retryable exitCode => rfl
    | ok data =>
      dsimp only
      split
      · rw [List.filterMap_append, filterMap_outcome_map_send]
        cases (emitFinalData limits source state data).1.budgetError <;> rfl
      · rfl

/-- **What a worker sends** with its guard in hand is what it sends without. -/
theorem sent_operationActs (planned : PlannedSource) {tool : String}
    (htool : planned.source.descriptor.toolName planned.operation = some tool) :
    (operationActs limits planned
      (planned.source.catalog tool planned.input.arguments)).filterMap WorkerAct.sent? =
        runSourceOperation limits planned := by
  rw [operationActs, htool, runSourceOperation, htool]
  simp only [List.cons_append, List.filterMap_cons, WorkerAct.sent?, List.filterMap_append,
    filterMap_sent_map_send, sent_finishStreamActs]

/-- **A worker consumes its guard** exactly once when it is not dropped, whatever its tool does. -/
theorem operationActs_consumes (planned : PlannedSource) (run : ToolRun) {tool : String}
    (htool : planned.source.descriptor.toolName planned.operation = some tool) :
    ((operationActs limits planned run).filterMap WorkerAct.outcome?).length = 1 := by
  rw [operationActs, htool]
  simp only [List.cons_append, List.filterMap_cons, WorkerAct.outcome?, List.filterMap_append,
    filterMap_outcome_map_send, List.nil_append, length_outcomes_finishStreamActs]

end Acts

/-! ## Accounts -/

/-- The metrics, and the guards so far: how many were handed out, and which came back. -/
structure Accounts where
  metrics : EngineMetrics
  /-- The number of operations that were started; nothing reads it. -/
  next : ℕ
  /-- The operations whose end was counted; nothing reads them. -/
  ended : List OperationGuard

namespace Accounts

/-- Starts an operation. -/
def start (accounts : Accounts) (source : SourceId) (operation : OperationKind) :
    OperationGuard × Accounts :=
  (⟨accounts.next, source, operation⟩,
    { accounts with metrics := accounts.metrics.start source operation, next := accounts.next + 1 })

/-- Consumes a guard. -/
def finish (accounts : Accounts) (guard : OperationGuard) (outcome : TerminalOutcome) : Accounts :=
  { accounts with
    metrics := accounts.metrics.terminal guard.source guard.operation outcome
    ended := guard :: accounts.ended }

/-- Drops guards. -/
def drop (accounts : Accounts) (guards : List OperationGuard) : Accounts :=
  guards.foldl (fun accounts guard => accounts.finish guard .cancelled) accounts

/-- Counts an emitted record. -/
def recordEmitted (accounts : Accounts) (source : SourceId) : Accounts :=
  { accounts with metrics := accounts.metrics.recordEmitted source }

/-- Counts a dropped record. -/
def recordDeduplicated (accounts : Accounts) (source : SourceId) : Accounts :=
  { accounts with metrics := accounts.metrics.recordDeduplicated source }

/-- The accounts agree with the guards that are held. -/
def Balanced (accounts : Accounts) (held : List OperationGuard) : Prop :=
  Ledger accounts.metrics accounts.next held accounts.ended

/-- How many records of a source were emitted, and how many were dropped. -/
def tally (accounts : Accounts) (source : SourceId) : Option (ℕ × ℕ) :=
  (accounts.metrics.get source).map fun counters =>
    (counters.recordsEmitted, counters.recordsDeduplicated)

variable {accounts : Accounts} {held : List OperationGuard}

/-- The order of the guards does not matter. -/
lemma Balanced.perm (h : accounts.Balanced held) {held' : List OperationGuard}
    (hperm : held.Perm held') : accounts.Balanced held' :=
  Ledger.perm h hperm

/-- A started operation is held. -/
lemma Balanced.start (h : accounts.Balanced held) (source : SourceId) (operation : OperationKind) :
    (accounts.start source operation).2.Balanced ((accounts.start source operation).1 :: held) :=
  Ledger.start h source operation

/-- A consumed guard is held no longer. -/
lemma Balanced.finish {guard : OperationGuard} (h : accounts.Balanced (guard :: held))
    (outcome : TerminalOutcome) : (accounts.finish guard outcome).Balanced held :=
  Ledger.terminal h outcome

/-- Dropped guards are held no longer. -/
lemma Balanced.drop {guards : List OperationGuard} (h : accounts.Balanced (guards ++ held)) :
    (accounts.drop guards).Balanced held := by
  induction guards generalizing accounts with
  | nil => exact h
  | cons guard guards ih => exact ih (Balanced.finish h .cancelled)

/-- Counting records keeps the accounts balanced. -/
lemma Balanced.recordEmitted (h : accounts.Balanced held) (source : SourceId) :
    (accounts.recordEmitted source).Balanced held :=
  Ledger.update (f := fun counters =>
      { counters with recordsEmitted := counters.recordsEmitted + 1 })
    h source fun _ operation => by cases operation <;> rfl

/-- Counting records keeps the accounts balanced. -/
lemma Balanced.recordDeduplicated (h : accounts.Balanced held) (source : SourceId) :
    (accounts.recordDeduplicated source).Balanced held :=
  Ledger.update (f := fun counters =>
      { counters with recordsDeduplicated := counters.recordsDeduplicated + 1 })
    h source fun _ operation => by cases operation <;> rfl

/-- The records after an update. -/
lemma tally_update (metrics : EngineMetrics) (changed : SourceId) (f : SourceMetrics → SourceMetrics)
    (next : ℕ) (ended : List OperationGuard) (source : SourceId) :
    tally ⟨metrics.update changed f, next, ended⟩ source =
      (metrics.get source).map fun counters =>
        if source = changed then ((f counters).recordsEmitted, (f counters).recordsDeduplicated)
        else (counters.recordsEmitted, counters.recordsDeduplicated) := by
  rw [tally, EngineMetrics.get_update, Option.map_map]
  congr 1
  funext counters
  by_cases h : source = changed <;> simp [h]

/-- Starting an operation counts no record. -/
@[simp] lemma tally_start (accounts : Accounts) (started source : SourceId)
    (operation : OperationKind) :
    (accounts.start started operation).2.tally source = accounts.tally source := by
  refine (tally_update _ _ _ _ _ _).trans ?_
  simp [tally]

/-- Ending an operation counts no record. -/
@[simp] lemma tally_finish (accounts : Accounts) (guard : OperationGuard) (outcome : TerminalOutcome)
    (source : SourceId) : (accounts.finish guard outcome).tally source = accounts.tally source := by
  refine (tally_update _ _ _ _ _ _).trans ?_
  simp [tally]

/-- Dropping guards counts no record. -/
@[simp] lemma tally_drop (accounts : Accounts) (guards : List OperationGuard) (source : SourceId) :
    (accounts.drop guards).tally source = accounts.tally source := by
  induction guards generalizing accounts with
  | nil => rfl
  | cons guard guards ih => exact (ih _).trans (tally_finish _ _ _ _)

/-- An emitted record is counted for its source. -/
lemma tally_recordEmitted (accounts : Accounts) (emitted source : SourceId) :
    (accounts.recordEmitted emitted).tally source =
      (accounts.tally source).map fun counted =>
        (counted.1 + if source = emitted then 1 else 0, counted.2) := by
  refine (tally_update _ _ _ _ _ _).trans ?_
  rw [tally, Option.map_map]
  congr 1
  funext counters
  by_cases h : source = emitted <;> simp [h]

/-- A dropped record is counted for its source. -/
lemma tally_recordDeduplicated (accounts : Accounts) (dropped source : SourceId) :
    (accounts.recordDeduplicated dropped).tally source =
      (accounts.tally source).map fun counted =>
        (counted.1, counted.2 + if source = dropped then 1 else 0) := by
  refine (tally_update _ _ _ _ _ _).trans ?_
  rw [tally, Option.map_map]
  congr 1
  funext counters
  by_cases h : source = dropped <;> simp [h]

end Accounts

/-! ## Workers -/

/-- What is left of a worker: the guard it holds and what it is still going to do. -/
structure WorkerFuture where
  guard : Option OperationGuard
  todo : List WorkerAct

namespace WorkerFuture

/-- Lets a worker do the next thing: the events it sends, and what is left of it. A worker with
nothing left to do returns, and drops what it holds. -/
def poll (accounts : Accounts) (delivered : Bool) (future : WorkerFuture) :
    Accounts × List WorkerEvent × Option WorkerFuture :=
  match future.todo with
  | [] => (accounts.drop future.guard.toList, [], none)
  | .start source operation :: rest =>
    let (guard, accounts) := (accounts.drop future.guard.toList).start source operation
    (accounts, [], some ⟨some guard, rest⟩)
  | .send event :: rest =>
    (accounts, if delivered then [event] else [], some { future with todo := rest })
  | .finish outcome :: rest =>
    match future.guard with
    | some guard => (accounts.finish guard outcome, [], some ⟨none, rest⟩)
    | none => (accounts, [], some ⟨none, rest⟩)

/-- The guards of what is left of a worker. -/
def guards : Option WorkerFuture → List OperationGuard
  | some future => future.guard.toList
  | none => []

/-- The accounts stay balanced with what is left of the worker. -/
lemma balanced_poll {accounts : Accounts} {held : List OperationGuard} (delivered : Bool)
    {future : WorkerFuture} (h : accounts.Balanced (future.guard.toList ++ held)) :
    (future.poll accounts delivered).1.Balanced
      (guards (future.poll accounts delivered).2.2 ++ held) := by
  unfold poll
  split
  · exact h.drop
  · exact h.drop.start _ _
  · exact h
  · cases hguard : future.guard with
    | some guard =>
      rw [hguard] at h
      exact h.finish _
    | none =>
      rw [hguard] at h
      exact h

/-- A worker counts no record. -/
lemma tally_poll (accounts : Accounts) (delivered : Bool) (future : WorkerFuture)
    (source : SourceId) :
    (future.poll accounts delivered).1.tally source = accounts.tally source := by
  unfold poll
  split
  · simp
  · simp
  · rfl
  · cases future.guard <;> simp

end WorkerFuture

/-! ## Streams -/

/-- A running source with its worker. -/
structure MeteredSource where
  /-- The events that were sent and not received yet. -/
  rx : List WorkerEvent
  /-- What is left of the worker; `none` once it has returned. -/
  future : Option WorkerFuture

/-- The guards that a running source holds. -/
def MeteredSource.guards (source : MeteredSource) : List OperationGuard :=
  WorkerFuture.guards source.future

/-- A stream, with its workers. -/
structure MeteredDriver where
  initial : List WorkerEvent
  pending : List PlannedSource
  running : List MeteredSource
  dedupe : DedupeSet
  limits : EngineLimits
  strict : Bool
  stopping : Bool

/-- What an action leads to for the callers. -/
inductive EngineReply where
  | none
  /-- A record is yielded. -/
  | record (source : SourceId) (record : Record)
  /-- A record that was forwarded is dropped as a duplicate. -/
  | duplicate (source : SourceId) (record : Record)
  /-- A failure is yielded. -/
  | sourceFailed (diagnostic : EngineDiagnostic)
  /-- A fetch returns. -/
  | fetched (result : Except EngineError Record)

/-- The event that the caller of a stream gets. -/
def EngineReply.event? : EngineReply → Option EngineEvent
  | .record _ value => some (.record value)
  | .sourceFailed diagnostic => some (.sourceFailed diagnostic)
  | _ => Option.none

namespace MeteredDriver

/-- The stream of a plan, before its first poll. -/
def new (sources : List CatalogSource) (plan : StreamPlan) (limits : EngineLimits) :
    MeteredDriver :=
  let (pending, diagnostics, strict) := planSources sources plan
  ⟨diagnostics.map .failed, pending, [], .empty, limits, strict, false⟩

/-- The guards that the workers of a stream hold. -/
def guards (driver : MeteredDriver) : List OperationGuard :=
  driver.running.flatMap MeteredSource.guards

/-- The end of a stream at its first failure: its workers are dropped. -/
def stop (accounts : Accounts) (driver : MeteredDriver) : Accounts × MeteredDriver :=
  (accounts.drop driver.guards, { driver with stopping := true, pending := [], running := [] })

/-- Takes an event: a record is yielded unless it was seen before, a failure is always yielded. -/
def mapEvent (accounts : Accounts) (driver : MeteredDriver) (event : WorkerEvent) :
    Accounts × MeteredDriver × EngineReply :=
  match event with
  | .record source record =>
    let (fresh, dedupe) := driver.dedupe.insert record
    if fresh then
      (accounts.recordEmitted source, { driver with dedupe := dedupe }, .record source record)
    else
      (accounts.recordDeduplicated source, { driver with dedupe := dedupe },
        .duplicate source record)
  | .failed diagnostic =>
    if driver.strict then
      let (accounts, driver) := driver.stop accounts
      (accounts, driver, .sourceFailed diagnostic)
    else (accounts, driver, .sourceFailed diagnostic)

/-- Starts the next source, if there is one and not enough are running. -/
def startReadySource [ExternalParsers] (driver : MeteredDriver) (run : ToolRun) : MeteredDriver :=
  if !driver.stopping && driver.running.length < max driver.limits.maxActiveSources 1 then
    match driver.pending with
    | [] => driver
    | planned :: pending =>
      { driver with
        pending := pending
        running := driver.running ++ [⟨[], some ⟨none, operationActs driver.limits planned run⟩⟩] }
  else driver

/-- Lets the worker of a running source do the next thing. -/
def pollWorker (accounts : Accounts) (driver : MeteredDriver) (slot : ℕ) (delivered : Bool) :
    Accounts × MeteredDriver :=
  match driver.running[slot]? with
  | some ⟨rx, some future⟩ =>
    let (accounts, sent, future) := future.poll accounts delivered
    (accounts, { driver with running := driver.running.set slot ⟨rx ++ sent, future⟩ })
  | _ => (accounts, driver)

/-- Takes the next event of a running source. -/
def receive (accounts : Accounts) (driver : MeteredDriver) (slot : ℕ) :
    Accounts × MeteredDriver × EngineReply :=
  match driver.running[slot]? with
  | some ⟨event :: rx, future⟩ =>
    { driver with running := driver.running.set slot ⟨rx, future⟩ }.mapEvent accounts event
  | _ => (accounts, driver, .none)

/-- Takes the next failure known beforehand. -/
def receiveInitial (accounts : Accounts) (driver : MeteredDriver) :
    Accounts × MeteredDriver × EngineReply :=
  match driver.initial with
  | event :: initial => { driver with initial := initial }.mapEvent accounts event
  | [] => (accounts, driver, .none)

/-- Removes a running source that has returned and left no event. -/
def removeSource (driver : MeteredDriver) (slot : ℕ) : MeteredDriver :=
  match driver.running[slot]? with
  | some ⟨[], none⟩ => { driver with running := driver.running.eraseIdx slot }
  | _ => driver

/-- The driver without its guards: the one that `SearchDriver` describes. -/
def forget (driver : MeteredDriver) (cursor : ℕ) (handled : List WorkerEvent) : SearchDriver where
  initial := driver.initial
  pending := driver.pending
  running := driver.running.map fun source =>
    ⟨source.rx, source.future.map fun future => future.todo.filterMap WorkerAct.sent?⟩
  dedupe := driver.dedupe
  maxActive := max driver.limits.maxActiveSources 1
  strict := driver.strict
  stopping := driver.stopping
  cursor := cursor
  handled := handled

/-- **Counting changes nothing else**: an event is taken as by the driver without guards. -/
theorem forget_mapEvent (accounts : Accounts) (driver : MeteredDriver) (event : WorkerEvent)
    (cursor : ℕ) (handled : List WorkerEvent) :
    ((driver.mapEvent accounts event).2.2.event?,
        (driver.mapEvent accounts event).2.1.forget cursor (handled ++ [event])) =
      (driver.forget cursor handled).mapEvent event := by
  cases event with
  | record source record =>
    cases hinsert : driver.dedupe.insert record with
    | mk fresh dedupe =>
      cases fresh <;> simp [mapEvent, SearchDriver.mapEvent, forget, hinsert, EngineReply.event?]
  | failed diagnostic =>
    cases hstrict : driver.strict <;>
      simp [mapEvent, stop, SearchDriver.mapEvent, SearchDriver.stop, forget, hstrict,
        EngineReply.event?]

/-- **Starting a source** is what the driver without guards does, with what the tool makes its worker
send. -/
theorem forget_startReadySource [ExternalParsers] (driver : MeteredDriver) (run : ToolRun)
    (cursor : ℕ) (handled : List WorkerEvent) :
    (driver.startReadySource run).forget cursor handled =
      (driver.forget cursor handled).startReadySource fun planned =>
        (operationActs driver.limits planned run).filterMap WorkerAct.sent? := by
  have hready : (!(driver.forget cursor handled).stopping &&
      decide ((driver.forget cursor handled).running.length <
        (driver.forget cursor handled).maxActive)) =
      (!driver.stopping &&
        decide (driver.running.length < max driver.limits.maxActiveSources 1)) := by
    rw [forget, List.length_map]
  rw [startReadySource, SearchDriver.startReadySource, hready]
  split
  · cases hpending : driver.pending <;> simp [forget, hpending]
  · rfl

end MeteredDriver

/-! ## Fetches -/

/-- A fetch whose tool is running. -/
structure FetchCall where
  guard : OperationGuard
  limits : EngineLimits

/-- Ends a fetch with what its tool returned. -/
def FetchCall.finish [ExternalParsers] (decodeError : Json → String) (accounts : Accounts)
    (call : FetchCall) (outcome : ToolCallOutcome) : Accounts × Except EngineError Record :=
  match outcome with
  | .ok data =>
    match deserializeRecord call.limits call.guard.source decodeError data with
    | .ok record => (accounts.finish call.guard .success, .ok record)
    | .error error => (accounts.finish call.guard (.ofFailure .protocol), .error error)
  | .error code message _ _ =>
    (accounts.finish call.guard (.recordFailure (errorClass code)),
      .error (.source ⟨call.guard.source, errorClass code, message, none⟩))

/-! ## The engine -/

/-- The streams and the fetches that are under way, and the accounts. -/
structure EngineState where
  accounts : Accounts
  drivers : List MeteredDriver
  fetches : List FetchCall

/-- The guards that are held. -/
def EngineState.held (state : EngineState) : List OperationGuard :=
  state.drivers.flatMap MeteredDriver.guards ++ state.fetches.map FetchCall.guard

/-- What may happen next. -/
inductive EngineAction where
  /-- A stream is opened. -/
  | openStream (plan : StreamPlan) (limits : EngineLimits)
  /-- A stream starts its next source, whose tool is going to behave in some way. -/
  | startSource (stream : ℕ) (run : ToolRun)
  | pollWorker (stream slot : ℕ) (delivered : Bool)
  | receive (stream slot : ℕ)
  | receiveInitial (stream : ℕ)
  | removeSource (stream slot : ℕ)
  /-- A stream is dropped, with its workers. -/
  | dropStream (stream : ℕ)
  /-- A fetch is polled for the first time. -/
  | fetch (target : Target) (limits : EngineLimits)
  | finishFetch (call : ℕ) (outcome : ToolCallOutcome)
  /-- A fetch is dropped. -/
  | dropFetch (call : ℕ)

namespace EngineState

variable [ExternalParsers] (catalog : SourceCatalog) (decodeError : Json → String)

/-- Changes a stream and the accounts. -/
def onStream (state : EngineState) (stream : ℕ)
    (f : Accounts → MeteredDriver → Accounts × MeteredDriver × EngineReply) :
    EngineState × EngineReply :=
  match state.drivers[stream]? with
  | some driver =>
    let (accounts, driver, reply) := f state.accounts driver
    ({ state with accounts := accounts, drivers := state.drivers.set stream driver }, reply)
  | none => (state, .none)

/-- Begins a fetch. -/
def fetch (state : EngineState) (target : Target) (limits : EngineLimits) :
    EngineState × EngineReply :=
  match catalog.source target.source with
  | none => (state, .fetched (.error (.sourceNotFound target.source)))
  | some source =>
    let (guard, accounts) := state.accounts.start target.source .fetch
    match source.descriptor.toolName .fetch with
    | none =>
      ({ state with accounts := accounts.finish guard (.ofFailure .unsupported) },
        .fetched (.error (.unsupported target.source OperationKind.fetch.asStr)))
    | some _ =>
      ({ state with accounts := accounts, fetches := state.fetches ++ [⟨guard, limits⟩] }, .none)

/-- Does what an action says. -/
def step (state : EngineState) : EngineAction → EngineState × EngineReply
  | .openStream plan limits =>
    ({ state with drivers := state.drivers ++ [.new catalog.sources plan limits] }, .none)
  | .startSource stream run =>
    state.onStream stream fun accounts driver => (accounts, driver.startReadySource run, .none)
  | .pollWorker stream slot delivered =>
    state.onStream stream fun accounts driver =>
      let (accounts, driver) := driver.pollWorker accounts slot delivered
      (accounts, driver, .none)
  | .receive stream slot =>
    state.onStream stream fun accounts driver => driver.receive accounts slot
  | .receiveInitial stream =>
    state.onStream stream fun accounts driver => driver.receiveInitial accounts
  | .removeSource stream slot =>
    state.onStream stream fun accounts driver => (accounts, driver.removeSource slot, .none)
  | .dropStream stream =>
    match state.drivers[stream]? with
    | some driver =>
      ({ state with
        accounts := state.accounts.drop driver.guards
        drivers := state.drivers.eraseIdx stream }, .none)
    | none => (state, .none)
  | .fetch target limits => state.fetch catalog target limits
  | .finishFetch call outcome =>
    match state.fetches[call]? with
    | some fetch =>
      let (accounts, result) := fetch.finish decodeError state.accounts outcome
      ({ state with accounts := accounts, fetches := state.fetches.eraseIdx call },
        .fetched result)
    | none => (state, .none)
  | .dropFetch call =>
    match state.fetches[call]? with
    | some fetch =>
      ({ state with
        accounts := state.accounts.drop [fetch.guard]
        fetches := state.fetches.eraseIdx call }, .none)
    | none => (state, .none)

end EngineState

/-- The engine over a catalog. -/
def engine [ExternalParsers] (catalog : SourceCatalog) (decodeError : Json → String) :
    Machine EngineState EngineAction EngineReply where
  init := ⟨⟨.new (catalog.sources.map CatalogSource.id), 0, []⟩, [], []⟩
  step := EngineState.step catalog decodeError

/-! ## Guards in lists -/

section Lists

variable {α β : Type} (f : α → List β) {l : List α} {i : ℕ}

/-- What one entry of a list holds stands apart. -/
lemma flatMap_perm_of_getElem? {a : α} (h : l[i]? = some a) :
    (l.flatMap f).Perm (f a ++ (l.eraseIdx i).flatMap f) := by
  obtain ⟨hi, rfl⟩ := List.getElem?_eq_some_iff.mp h
  exact ((List.getElem_cons_eraseIdx_perm hi).symm.flatMap_right f).trans (by simp)

/-- What a new entry of a list holds stands in place of what the old one held. -/
lemma flatMap_set_perm (h : i < l.length) (b : α) :
    ((l.set i b).flatMap f).Perm (f b ++ (l.eraseIdx i).flatMap f) :=
  ((List.set_perm_cons_eraseIdx h b).flatMap_right f).trans (by simp)

/-- Changing what one entry of a list holds, beside others. -/
lemma flatMap_append_perm {a : α} (h : l[i]? = some a) (others : List β) :
    (l.flatMap f ++ others).Perm (f a ++ ((l.eraseIdx i).flatMap f ++ others)) :=
  ((flatMap_perm_of_getElem? f h).append_right others).trans (by rw [List.append_assoc])

/-- Changing what one entry of a list holds, beside others. -/
lemma flatMap_set_append_perm {a : α} (h : l[i]? = some a) (b : α) (others : List β) :
    (f b ++ ((l.eraseIdx i).flatMap f ++ others)).Perm ((l.set i b).flatMap f ++ others) := by
  obtain ⟨hi, -⟩ := List.getElem?_eq_some_iff.mp h
  rw [← List.append_assoc]
  exact (flatMap_set_perm f hi b).symm.append_right others

end Lists

/-! ## What each step counts -/

/-- Whether a record of a source is yielded. -/
def EngineReply.isRecord (source : SourceId) : EngineReply → Bool
  | .record other _ => other = source
  | _ => false

/-- Whether a record of a source is dropped. -/
def EngineReply.isDuplicate (source : SourceId) : EngineReply → Bool
  | .duplicate other _ => other = source
  | _ => false

/-- The records that were counted, and those of a reply. -/
def EngineReply.count (reply : EngineReply) (source : SourceId) (counted : ℕ × ℕ) : ℕ × ℕ :=
  (counted.1 + if reply.isRecord source then 1 else 0,
    counted.2 + if reply.isDuplicate source then 1 else 0)

/-- The accounts stay balanced while some guards become others, and the records of the reply are
counted. -/
structure Accounts.Books (accounts : Accounts) (held : List OperationGuard) (accounts' : Accounts)
    (held' : List OperationGuard) (reply : EngineReply) : Prop where
  balanced : ∀ others, accounts.Balanced (held ++ others) → accounts'.Balanced (held' ++ others)
  counted : ∀ source, accounts'.tally source = (accounts.tally source).map (reply.count source)

namespace Accounts.Books

variable {accounts accounts' : Accounts} {held held' : List OperationGuard} {reply : EngineReply}

/-- What changes neither the guards nor the records is booked. -/
lemma of_tally_eq (hbalanced : ∀ others, accounts.Balanced (held ++ others) →
      accounts'.Balanced (held' ++ others))
    (htally : ∀ source, accounts'.tally source = accounts.tally source)
    (hreply : ∀ source, reply.isRecord source = false ∧ reply.isDuplicate source = false) :
    Books accounts held accounts' held' reply where
  balanced := hbalanced
  counted source := by
    have hcount : reply.count source = id := by
      funext counted
      simp [EngineReply.count, hreply source]
    rw [htally source, hcount, Option.map_id, id]

/-- Nothing changes. -/
lemma refl (hreply : ∀ source, reply.isRecord source = false ∧ reply.isDuplicate source = false) :
    Books accounts held accounts held reply :=
  of_tally_eq (fun _ h => h) (fun _ => rfl) hreply

/-- The order of the guards does not matter. -/
lemma perm (h : Books accounts held accounts' held' reply) {before after : List OperationGuard}
    (hbefore : ∃ others, before.Perm (held ++ others) ∧ (held' ++ others).Perm after) :
    Books accounts before accounts' after reply := by
  obtain ⟨others, hbefore, hafter⟩ := hbefore
  refine ⟨fun more hmore => ?_, h.counted⟩
  have hheld := h.balanced (others ++ more) (hmore.perm (by
    rw [← List.append_assoc]
    exact hbefore.append_right more))
  rw [← List.append_assoc] at hheld
  exact hheld.perm (hafter.append_right more)

end Accounts.Books

open Accounts (Books)

/-- Doing the next thing of a worker is booked. -/
lemma WorkerFuture.books_poll (accounts : Accounts) (delivered : Bool) (future : WorkerFuture) :
    Books accounts future.guard.toList (future.poll accounts delivered).1
      (guards (future.poll accounts delivered).2.2) .none :=
  .of_tally_eq (fun _ h => balanced_poll delivered h) (tally_poll accounts delivered future)
    fun _ => ⟨rfl, rfl⟩

namespace MeteredDriver

/-- The end of a stream is booked. -/
lemma books_stop (accounts : Accounts) (driver : MeteredDriver) (diagnostic : EngineDiagnostic) :
    Books accounts driver.guards (driver.stop accounts).1 (driver.stop accounts).2.guards
      (.sourceFailed diagnostic) :=
  .of_tally_eq (fun _ h => h.drop) (fun _ => Accounts.tally_drop _ _ _) fun _ => ⟨rfl, rfl⟩

/-- **Taking an event** is booked: a yielded record is counted as emitted, a dropped one as
deduplicated, and the workers that a failure stops as cancelled. -/
theorem books_mapEvent (accounts : Accounts) (driver : MeteredDriver) (event : WorkerEvent) :
    Books accounts driver.guards (driver.mapEvent accounts event).1
      (driver.mapEvent accounts event).2.1.guards (driver.mapEvent accounts event).2.2 := by
  cases event with
  | record source record =>
    cases hinsert : driver.dedupe.insert record with
    | mk fresh dedupe =>
      simp only [mapEvent, hinsert]
      cases fresh with
      | true =>
        refine ⟨fun _ h => h.recordEmitted source, fun other => ?_⟩
        rw [if_pos rfl, Accounts.tally_recordEmitted]
        congr 1
        funext counted
        simp [EngineReply.count, EngineReply.isRecord, EngineReply.isDuplicate, eq_comm]
      | false =>
        refine ⟨fun _ h => h.recordDeduplicated source, fun other => ?_⟩
        rw [if_neg Bool.false_ne_true, Accounts.tally_recordDeduplicated]
        congr 1
        funext counted
        simp [EngineReply.count, EngineReply.isRecord, EngineReply.isDuplicate, eq_comm]
  | failed diagnostic =>
    rw [mapEvent]
    split
    · exact books_stop accounts driver diagnostic
    · exact .refl fun _ => ⟨rfl, rfl⟩

/-- Changing one running source changes its guards only. -/
lemma guards_set_running {driver : MeteredDriver} {slot : ℕ} {source : MeteredSource}
    (h : driver.running[slot]? = some source) (source' : MeteredSource) :
    ∃ others, driver.guards.Perm (source.guards ++ others) ∧
      (source'.guards ++ others).Perm
        { driver with running := driver.running.set slot source' }.guards := by
  refine ⟨(driver.running.eraseIdx slot).flatMap MeteredSource.guards, ?_, ?_⟩
  · exact flatMap_perm_of_getElem? MeteredSource.guards h
  · exact (flatMap_set_perm MeteredSource.guards (List.getElem?_eq_some_iff.mp h).1 source').symm

/-- Letting a worker do the next thing is booked. -/
lemma books_pollWorker (accounts : Accounts) (driver : MeteredDriver) (slot : ℕ) (delivered : Bool) :
    Books accounts driver.guards (driver.pollWorker accounts slot delivered).1
      (driver.pollWorker accounts slot delivered).2.guards .none := by
  rw [pollWorker]
  split
  · rename_i rx future hslot
    exact (future.books_poll accounts delivered).perm (guards_set_running hslot
      ⟨rx ++ (future.poll accounts delivered).2.1, (future.poll accounts delivered).2.2⟩)
  · exact .refl fun _ => ⟨rfl, rfl⟩

/-- Taking the next event of a running source is booked. -/
lemma books_receive (accounts : Accounts) (driver : MeteredDriver) (slot : ℕ) :
    Books accounts driver.guards (driver.receive accounts slot).1
      (driver.receive accounts slot).2.1.guards (driver.receive accounts slot).2.2 := by
  rw [receive]
  split
  · rename_i event rx future hslot
    obtain ⟨others, hbefore, hafter⟩ := guards_set_running hslot ⟨rx, future⟩
    refine (books_mapEvent accounts
      { driver with running := driver.running.set slot ⟨rx, future⟩ } event).perm ⟨[], ?_, ?_⟩
    · rw [List.append_nil]
      exact hbefore.trans hafter
    · rw [List.append_nil]
  · exact .refl fun _ => ⟨rfl, rfl⟩

/-- Taking the next failure known beforehand is booked. -/
lemma books_receiveInitial (accounts : Accounts) (driver : MeteredDriver) :
    Books accounts driver.guards (driver.receiveInitial accounts).1
      (driver.receiveInitial accounts).2.1.guards (driver.receiveInitial accounts).2.2 := by
  rw [receiveInitial]
  split
  · rename_i event initial hinitial
    exact books_mapEvent accounts { driver with initial := initial } event
  · exact .refl fun _ => ⟨rfl, rfl⟩

/-- A source that starts holds no guard yet. -/
lemma guards_startReadySource [ExternalParsers] (driver : MeteredDriver) (run : ToolRun) :
    (driver.startReadySource run).guards = driver.guards := by
  rw [startReadySource]
  split
  · split
    · rfl
    · simp [guards, MeteredSource.guards, WorkerFuture.guards]
  · rfl

/-- A source that has returned holds no guard. -/
lemma guards_removeSource (driver : MeteredDriver) (slot : ℕ) :
    driver.guards.Perm (driver.removeSource slot).guards := by
  rw [removeSource]
  split
  · rename_i hslot
    exact flatMap_perm_of_getElem? MeteredSource.guards hslot
  · exact List.Perm.refl _

end MeteredDriver

/-- The end of a fetch is booked. -/
lemma FetchCall.books_finish [ExternalParsers] (decodeError : Json → String) (accounts : Accounts)
    (call : FetchCall) (outcome : ToolCallOutcome) :
    Books accounts [call.guard] (call.finish decodeError accounts outcome).1 []
      (.fetched (call.finish decodeError accounts outcome).2) := by
  refine .of_tally_eq (fun others h => ?_) (fun source => ?_) fun _ => ⟨rfl, rfl⟩
  · rw [finish.eq_def]
    split
    · split <;> exact h.finish _
    · exact h.finish _
  · rw [finish.eq_def]
    split
    · split <;> exact Accounts.tally_finish _ _ _ _
    · exact Accounts.tally_finish _ _ _ _

namespace EngineState

/-- What is booked for a stream is booked for the engine. -/
lemma books_onStream {state : EngineState} {stream : ℕ}
    {f : Accounts → MeteredDriver → Accounts × MeteredDriver × EngineReply}
    (hf : ∀ driver, Books state.accounts driver.guards (f state.accounts driver).1
      (f state.accounts driver).2.1.guards (f state.accounts driver).2.2) :
    Books state.accounts state.held (state.onStream stream f).1.accounts
      (state.onStream stream f).1.held (state.onStream stream f).2 := by
  rw [onStream]
  split
  · rename_i driver hstream
    exact (hf driver).perm ⟨_, flatMap_append_perm MeteredDriver.guards hstream _,
      flatMap_set_append_perm MeteredDriver.guards hstream _ _⟩
  · exact .refl fun _ => ⟨rfl, rfl⟩

variable [ExternalParsers] (catalog : SourceCatalog) (decodeError : Json → String)

omit [ExternalParsers] in
/-- Beginning a fetch is booked. -/
lemma books_fetch (state : EngineState) (target : Target) (limits : EngineLimits) :
    Books state.accounts state.held (state.fetch catalog target limits).1.accounts
      (state.fetch catalog target limits).1.held (state.fetch catalog target limits).2 := by
  rw [fetch]
  split
  · exact .refl fun _ => ⟨rfl, rfl⟩
  · rename_i source hsource
    dsimp only
    split
    · refine .of_tally_eq (fun others h => (h.start _ _).finish _) (fun other => ?_)
        fun _ => ⟨rfl, rfl⟩
      rw [Accounts.tally_finish, Accounts.tally_start]
    · refine .of_tally_eq (fun others h => (h.start target.source .fetch).perm ?_) (fun other => ?_)
        fun _ => ⟨rfl, rfl⟩
      · have hmiddle : ∀ guard : OperationGuard,
            (guard :: (state.held ++ others)).Perm (state.held ++ guard :: others) :=
          fun guard => List.perm_middle.symm
        simpa [held] using hmiddle _
      · exact Accounts.tally_start _ _ _ _

omit [ExternalParsers] in
/-- What one fetch holds stands apart. -/
lemma held_perm_of_getElem? {state : EngineState} {call : ℕ} {fetch : FetchCall}
    (h : state.fetches[call]? = some fetch) :
    state.held.Perm (fetch.guard ::
      { state with fetches := state.fetches.eraseIdx call }.held) := by
  have hfetches := flatMap_perm_of_getElem? (fun fetch => [FetchCall.guard fetch]) h
  simp only [← List.map_eq_flatMap] at hfetches
  exact (hfetches.append_left _).trans List.perm_middle

/-- **Every action is booked.** -/
theorem books_step (state : EngineState) (action : EngineAction) :
    Books state.accounts state.held (state.step catalog decodeError action).1.accounts
      (state.step catalog decodeError action).1.held (state.step catalog decodeError action).2 := by
  cases action with
  | openStream plan limits =>
    refine .of_tally_eq (fun others h => ?_) (fun _ => rfl) fun _ => ⟨rfl, rfl⟩
    simpa [step, held, MeteredDriver.guards, MeteredDriver.new] using h
  | startSource stream run =>
    refine books_onStream fun driver => ?_
    rw [driver.guards_startReadySource]
    exact .refl fun _ => ⟨rfl, rfl⟩
  | pollWorker stream slot delivered =>
    exact books_onStream fun driver => driver.books_pollWorker _ slot delivered
  | receive stream slot => exact books_onStream fun driver => driver.books_receive _ slot
  | receiveInitial stream => exact books_onStream fun driver => driver.books_receiveInitial _
  | removeSource stream slot =>
    exact books_onStream fun driver => .of_tally_eq
      (fun others h => h.perm ((driver.guards_removeSource slot).append_right others))
      (fun _ => rfl) fun _ => ⟨rfl, rfl⟩
  | dropStream stream =>
    rw [step]
    split
    · rename_i driver hstream
      refine .of_tally_eq (fun others h => ?_) (fun _ => Accounts.tally_drop _ _ _)
        fun _ => ⟨rfl, rfl⟩
      have hperm := (flatMap_append_perm MeteredDriver.guards hstream
        (state.fetches.map FetchCall.guard)).append_right others
      exact (h.perm (hperm.trans (.of_eq (List.append_assoc _ _ _)))).drop
    · exact .refl fun _ => ⟨rfl, rfl⟩
  | fetch target limits => exact state.books_fetch catalog target limits
  | finishFetch call outcome =>
    rw [step]
    split
    · rename_i fetch hcall
      exact (fetch.books_finish decodeError state.accounts outcome).perm
        ⟨_, held_perm_of_getElem? hcall, List.Perm.refl _⟩
    · exact .refl fun _ => ⟨rfl, rfl⟩
  | dropFetch call =>
    rw [step]
    split
    · rename_i fetch hcall
      refine .of_tally_eq (fun others h => ?_) (fun _ => Accounts.tally_drop _ _ _)
        fun _ => ⟨rfl, rfl⟩
      have hheld : state.accounts.Balanced ([fetch.guard] ++
          ({ state with fetches := state.fetches.eraseIdx call }.held ++ others)) :=
        h.perm ((held_perm_of_getElem? hcall).append_right others)
      exact hheld.drop
    · exact .refl fun _ => ⟨rfl, rfl⟩

end EngineState

/-! ## Conservation -/

section Conservation

variable [ExternalParsers] (catalog : SourceCatalog) (decodeError : Json → String)

/-- The accounts of a run are balanced, and its records are counted. -/
lemma engine_booked (actions : List EngineAction) :
    ((engine catalog decodeError).run actions).accounts.Balanced
        ((engine catalog decodeError).run actions).held ∧
      ∀ source ∈ catalog.sources.map CatalogSource.id,
        ((engine catalog decodeError).run actions).accounts.tally source =
          some (((engine catalog decodeError).replies actions).countP (EngineReply.isRecord source),
            ((engine catalog decodeError).replies actions).countP
              (EngineReply.isDuplicate source)) := by
  refine (engine catalog decodeError).run_induction
    (P := fun trace state => state.accounts.Balanced state.held ∧
      ∀ source ∈ catalog.sources.map CatalogSource.id, state.accounts.tally source =
        some ((trace.map Machine.Step.reply).countP (EngineReply.isRecord source),
          (trace.map Machine.Step.reply).countP (EngineReply.isDuplicate source)))
    ⟨.new _, fun source hsource => ?_⟩ (fun trace state action h => ?_) actions
  · show (EngineMetrics.get (.new _) source).map _ = _
    rw [EngineMetrics.get_new hsource]
    rfl
  · have hbooks := state.books_step catalog decodeError action
    have hstep : (engine catalog decodeError).step state action =
      state.step catalog decodeError action := rfl
    rw [hstep]
    refine ⟨by simpa using hbooks.balanced [] (by simpa using h.1), fun source hsource => ?_⟩
    rw [hbooks.counted source, h.2 source hsource, List.map_append, List.countP_append,
      List.countP_append]
    simp [EngineReply.count, List.countP_singleton, hstep]

/-- **Metrics conservation.** In every run of the engine, for every source and operation: the
requests are the operations that succeeded, failed, were cancelled or are still under way; every
operation that was started is either under way or was counted as ended once; no more rate limits are
counted than failures; and the records that were yielded and dropped are counted.

**Proof sketch.** Every action is booked: it moves guards between those that are held and those that
have ended, and counts the record of its reply. The counters follow by induction over the run. -/
theorem metrics_conserved (actions : List EngineAction) :
    let state := (engine catalog decodeError).run actions
    let replies := (engine catalog decodeError).replies actions
    (∀ n < state.accounts.next,
      state.held.countP (·.id = n) + state.accounts.ended.countP (·.id = n) = 1) ∧
    ∀ source ∈ catalog.sources.map CatalogSource.id,
      ∃ counters, state.accounts.metrics.get source = some counters ∧
        (∀ operation,
          let counted := counters.operation operation
          let underWay := state.held.countP (OperationGuard.isFor source operation)
          let ended := state.accounts.ended.countP (OperationGuard.isFor source operation)
          counted.requests = underWay + ended ∧
          counted.successes + counted.failures + counted.cancelled = ended ∧
          counted.requests =
            counted.successes + counted.failures + counted.cancelled + underWay ∧
          counted.rateLimits ≤ counted.failures) ∧
        counters.recordsEmitted = replies.countP (EngineReply.isRecord source) ∧
        counters.recordsDeduplicated = replies.countP (EngineReply.isDuplicate source) := by
  intro state replies
  obtain ⟨hbalanced, htally⟩ := engine_booked catalog decodeError actions
  refine ⟨fun n hn => ?_, fun source hsource => ?_⟩
  · have hcount := hbalanced.issued.count_eq n
    rw [List.count_eq_one_of_mem List.nodup_range (List.mem_range.mpr hn), List.count,
      List.countP_map, List.countP_append] at hcount
    exact hcount
  · obtain ⟨counters, hget, hcounted⟩ := Option.map_eq_some_iff.mp (htally source hsource)
    rw [Prod.mk.injEq] at hcounted
    refine ⟨counters, hget, fun operation => ?_, hcounted.1, hcounted.2⟩
    have hrequests := hbalanced.requests source counters hget operation
    have hterminals := hbalanced.terminals source counters hget operation
    refine ⟨hrequests, hterminals, ?_, hbalanced.rateLimits source counters hget operation⟩
    exact hrequests.trans ((Nat.add_comm _ _).trans (congrArg (· + _) hterminals.symm))

end Conservation

end Comsat
