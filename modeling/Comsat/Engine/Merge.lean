import Comsat.Engine.Dedupe
import Comsat.Engine.Plan
import Mathlib

set_option relaxedAutoImplicit false
set_option autoImplicit false

/-!
# The driver that merges sources

A search runs several sources at once and merges what they send into one stream. The driver takes
one event from each running source in turn, waits for the source whose turn it is, starts the next
source when one has finished, and drops records seen before.

## Main definitions

* `WorkerEvent`, `EngineEvent` — what a worker sends and what the driver emits.
* `SearchOutcome.collect` — what a stream of events came to.
* `RunningSource` — the channel of a running source and what its worker is still going to send.
* `SearchDriver`, `SearchDriver.new` — the state of the driver and how it starts.
* `SearchDriver.pollNext` — one poll of the stream.
* `SearchDriver.run` — the answers to a sequence of polls.

## Design

* What the worker of a source sends is a parameter, a list of events for each planned source. How
  far each worker gets whenever the driver polls it is a parameter as well: a `Round` says, for
  every slot, how many more events the worker sends and whether it returns once it has sent them
  all. One poll takes as many rounds as the driver makes.
* A channel holds any number of events: every behaviour of the bounded channel is that of some
  sequence of rounds.
* Metrics and wake-ups are left out. The cancellation of the workers when the driver stops is
  their removal.
* `SearchDriver.handled` is not a field of the source: it records the events given to `mapEvent`,
  and nothing reads it.
-/

namespace Comsat

/-! ## Events -/

/-- What the worker of a source sends. -/
inductive WorkerEvent where
  | record (source : SourceId) (record : Record)
  | failed (diagnostic : EngineDiagnostic)

/-- The source an event is about. -/
def WorkerEvent.source : WorkerEvent → SourceId
  | record source _ => source
  | failed diagnostic => diagnostic.source

/-- What the driver emits. -/
inductive EngineEvent where
  | record (record : Record)
  | sourceFailed (diagnostic : EngineDiagnostic)

/-- What a search came to. -/
structure SearchOutcome where
  records : List Record
  diagnostics : List EngineDiagnostic

/-- Collects the events of a stream. -/
def SearchOutcome.collect : List EngineEvent → SearchOutcome
  | [] => ⟨[], []⟩
  | .record record :: events => { collect events with records := record :: (collect events).records }
  | .sourceFailed diagnostic :: events =>
    { collect events with diagnostics := diagnostic :: (collect events).diagnostics }

/-- The limits of the engine. -/
structure EngineLimits where
  maxActiveSources : ℕ
  eventBuffer : ℕ
  maxRecordsPerSource : ℕ
  maxBytesPerSource : ℕ
deriving DecidableEq

/-- The limits that hold unless others are given. -/
def EngineLimits.default : EngineLimits where
  maxActiveSources := 4
  eventBuffer := 32
  maxRecordsPerSource := 1000
  maxBytesPerSource := 8 * 1024 * 1024

/-! ## Running sources -/

/-- How far a worker gets in one poll: it sends the next `sends` events, and it returns if nothing
is left to send and `returns` holds. -/
structure WorkerMove where
  sends : ℕ
  returns : Bool

/-- How far the worker in every slot gets. -/
abbrev Round := ℕ → WorkerMove

/-- A round in which no worker gets anywhere. -/
def Round.idle : Round := fun _ => ⟨0, false⟩

/-- A running source. -/
structure RunningSource where
  /-- The events that were sent and not received yet. -/
  rx : List WorkerEvent
  /-- What the worker is still going to send; `none` once it has returned. -/
  future : Option (List WorkerEvent)

namespace RunningSource

/-- Polls the worker. The answer says whether it returned just now. -/
def pollFuture (source : RunningSource) (move : WorkerMove) : RunningSource × Bool :=
  match source.future with
  | none => (source, false)
  | some todo =>
    if (todo.drop move.sends).isEmpty && move.returns then
      (⟨source.rx ++ todo.take move.sends, none⟩, true)
    else (⟨source.rx ++ todo.take move.sends, some (todo.drop move.sends)⟩, false)

/-- Whether the worker has returned. -/
def isClosed (source : RunningSource) : Bool := source.future.isNone

/-- Everything the source is still going to give. -/
def left (source : RunningSource) : List WorkerEvent := source.rx ++ source.future.getD []

/-- Polling a worker changes nothing about what the source is still going to give. -/
@[simp] lemma left_pollFuture (source : RunningSource) (move : WorkerMove) :
    (source.pollFuture move).1.left = source.left := by
  obtain ⟨rx, _ | todo⟩ := source
  · rfl
  · simp only [pollFuture, left]
    split
    · rename_i h
      have hdrop : todo.drop move.sends = [] := by
        simpa using (Bool.and_eq_true_iff.mp h).1
      rw [← List.take_append_drop move.sends todo, hdrop]
      simp
    · simp

/-- A worker that makes no move does not return. -/
@[simp] lemma pollFuture_idle (source : RunningSource) (slot : ℕ) :
    (source.pollFuture (Round.idle slot)).2 = false := by
  obtain ⟨rx, _ | todo⟩ := source <;> simp [pollFuture, Round.idle]

end RunningSource

/-! ## The driver -/

/-- The state of the driver. -/
structure SearchDriver where
  /-- Failures known beforehand, not emitted yet. -/
  initial : List WorkerEvent
  /-- The sources that were not started yet. -/
  pending : List PlannedSource
  /-- The running sources. -/
  running : List RunningSource
  /-- The keys seen so far. -/
  dedupe : DedupeSet
  /-- How many sources may run at once. -/
  maxActive : ℕ
  /-- Whether the first failure ends the stream. -/
  strict : Bool
  /-- Whether a failure has ended the stream. -/
  stopping : Bool
  /-- The source whose turn it is. -/
  cursor : ℕ
  /-- Every event taken so far, in order. -/
  handled : List WorkerEvent

/-- What polling the source whose turn it is leads to. -/
inductive SourcePoll where
  | event (event : EngineEvent)
  | advanced
  | pending

/-- The answer to a poll of the stream. -/
inductive Poll where
  | ready (event : Option EngineEvent)
  | pending

/-- The event of an answer, if it has one. -/
def Poll.event? : Poll → Option EngineEvent
  | ready event => event
  | pending => none

namespace SearchDriver

/-- The driver of a plan, before its first poll. -/
def new (sources : List CatalogSource) (plan : StreamPlan) (limits : EngineLimits) :
    SearchDriver :=
  let (pending, diagnostics, strict) := planSources sources plan
  { initial := diagnostics.map .failed
    pending := pending
    running := []
    dedupe := .empty
    maxActive := max limits.maxActiveSources 1
    strict := strict
    stopping := false
    cursor := 0
    handled := [] }

/-- The end of a stream at its first failure. -/
def stop (d : SearchDriver) : SearchDriver :=
  { d with stopping := true, pending := [], running := [] }

/-- Takes an event: a record is emitted unless it was seen before, a failure is always emitted. -/
def mapEvent (d : SearchDriver) (event : WorkerEvent) : Option EngineEvent × SearchDriver :=
  let d := { d with handled := d.handled ++ [event] }
  match event with
  | .record _ record =>
    let (fresh, dedupe) := d.dedupe.insert record
    (if fresh then some (.record record) else none, { d with dedupe := dedupe })
  | .failed diagnostic => (some (.sourceFailed diagnostic), if d.strict then d.stop else d)

/-- Whether nothing is left to do. -/
def isComplete (d : SearchDriver) : Bool :=
  d.initial.isEmpty && d.running.isEmpty && d.pending.isEmpty

/-- The turn goes back to the first source when the cursor is beyond the last. -/
def normalizeCursor (d : SearchDriver) : SearchDriver :=
  if d.running.length ≤ d.cursor then { d with cursor := 0 } else d

/-- The turn passes to the next source. -/
def advanceCursor (d : SearchDriver) : SearchDriver :=
  if d.running.isEmpty then d else { d with cursor := (d.cursor + 1) % d.running.length }

/-- Takes the event of the source whose turn it is. -/
def consumeSourceEvent (d : SearchDriver) (event : WorkerEvent) : SourcePoll × SearchDriver :=
  let (event, d) := d.mapEvent event
  (match event with
    | some event => .event event
    | none => .advanced, d.advanceCursor)

/-- The events that were known beforehand. -/
def nextInitialEvent (d : SearchDriver) : Option EngineEvent × SearchDriver :=
  go d.initial d
where
  /-- Takes events until one of them is emitted. -/
  go : List WorkerEvent → SearchDriver → Option EngineEvent × SearchDriver
    | [], d => (none, { d with initial := [] })
    | event :: initial, d =>
      match { d with initial := initial }.mapEvent event with
      | (some event, d) => (some event, d)
      | (none, d) => go initial d

/-- Polls every worker. The answer says whether one of them returned just now. -/
def pollWorkers (d : SearchDriver) (round : Round) : Bool × SearchDriver :=
  let polled := d.running.mapIdx fun slot source => source.pollFuture (round slot)
  (polled.any Prod.snd, { d with running := polled.map Prod.fst })

/-- A bound on the sources and events that can be passed over without a new event. -/
def work (d : SearchDriver) : ℕ :=
  (d.running.map fun source => source.rx.length).sum + d.running.length + d.pending.length

section

variable (script : PlannedSource → List WorkerEvent)

/-- One turn of the loop that starts sources. -/
def startReadySource (d : SearchDriver) : SearchDriver :=
  if !d.stopping && d.running.length < d.maxActive then
    match d.pending with
    | [] => d
    | source :: pending =>
      { d with pending := pending, running := d.running ++ [⟨[], some (script source)⟩] }
  else d

/-- Starts sources until enough are running. -/
def startReadySources (d : SearchDriver) : SearchDriver :=
  (startReadySource script)^[d.pending.length] d

/-- Removes the source whose turn it is. -/
def removeCurrentSource (d : SearchDriver) : SearchDriver :=
  startReadySources script ({ d with running := d.running.eraseIdx d.cursor }.normalizeCursor)

/-- Polls the source whose turn it is: its next event is taken, and it is removed once it has none
left and its worker has returned. -/
def pollCurrentSource (d : SearchDriver) : SourcePoll × SearchDriver :=
  let d := d.normalizeCursor
  match d.running[d.cursor]? with
  | none => (.pending, d)
  | some source =>
    match source.rx with
    | event :: rx =>
      { d with running := d.running.set d.cursor { source with rx := rx } }.consumeSourceEvent
        event
    | [] => if source.isClosed then (.advanced, d.removeCurrentSource script) else (.pending, d)

/-- Polls sources in turn until an event is emitted or one of them has to be waited for. -/
def pollOrderedSourceEvent (d : SearchDriver) : Option EngineEvent × SearchDriver :=
  go (d.work + 1) d
where
  /-- The loop, with a bound on its turns. -/
  go : ℕ → SearchDriver → Option EngineEvent × SearchDriver
    | 0, d => (none, d)
    | turns + 1, d =>
      if d.running.isEmpty then (none, d)
      else
        match d.pollCurrentSource script with
        | (.event event, d) => (some event, d)
        | (.advanced, d) => go turns d
        | (.pending, d) => (none, d)

/-- The next event that is there to be emitted. -/
def pollAvailableEvent (d : SearchDriver) : Option EngineEvent × SearchDriver :=
  match d.nextInitialEvent with
  | (some event, d) => (some event, d)
  | (none, d) => d.pollOrderedSourceEvent script

/-- One turn of the loop of a poll: without an answer when the loop goes on. -/
def pollRound (d : SearchDriver) (round : Round) : Option Poll × SearchDriver :=
  match d.pollAvailableEvent script with
  | (some event, d) => (some (.ready (some event)), d)
  | (none, d) =>
    let (progress, d) := (d.startReadySources script).pollWorkers round
    match d.pollAvailableEvent script with
    | (some event, d) => (some (.ready (some event)), d)
    | (none, d) =>
      if progress then (none, d)
      else if d.isComplete then (some (.ready none), d)
      else (some .pending, d)

/-- One poll of the stream. When the rounds run out, no worker gets any further. -/
def pollNext : List Round → SearchDriver → Poll × SearchDriver
  | [], d =>
    match d.pollRound script .idle with
    | (some answer, d) => (answer, d)
    | (none, d) => (.pending, d)
  | round :: rounds, d =>
    match d.pollRound script round with
    | (some answer, d) => (answer, d)
    | (none, d) => pollNext rounds d

/-- The answers to a sequence of polls, and the driver after them. -/
def run : List (List Round) → SearchDriver → List Poll × SearchDriver
  | [], d => ([], d)
  | rounds :: polls, d =>
    let (answer, d) := d.pollNext script rounds
    let (answers, d) := run polls d
    (answer :: answers, d)

/-- The events emitted during a sequence of polls. -/
def emitted (polls : List (List Round)) (d : SearchDriver) : List EngineEvent :=
  (run script polls d).1.filterMap Poll.event?

end

end SearchDriver

end Comsat
