import Comsat.Engine.Invoke

set_option relaxedAutoImplicit false
set_option autoImplicit false

/-!
# Commands of sources

A source that is part of the program is offered to the engine as tools: a command for each
operation reads its input from the arguments, asks the source and writes what it returns.

## Main definitions

* `SourceRuntime` — what a source returns.
* `SourceCommand.run` — one command.
* `ToolLibrary` — the library that runs commands as tools.
* `CatalogSource.ofRuntime` — a source of the program as the engine sees it.

## Design

* What the library makes of a command's answer is a parameter. All that is assumed is that values
  are passed through and that the first error of a stream ends the call, unchanged.
* The texts of the deserializer are parameters.
-/

namespace Comsat

/-! ## Sources -/

/-- What a source returns for an operation: an operation that streams returns records and errors
one by one. -/
structure SourceRuntime where
  search : Query → List (Except SourceError Record)
  fetch : Target → Except SourceError Record
  follow : Target → List (Except SourceError Record)

/-- The answer of a command. -/
inductive CommandResult where
  | ok (data : Json)
  | error (code message : String) (retryable : Bool) (exitCode : Option ℕ)
  | recordStream (items : List StreamRecord)

/-! ## Writing -/

/-- Whether trying again may help, as a tool says it. -/
def isRetryable (c : ErrorClass) : Bool := c == .rateLimit || c == .timeout

/-- The error of a source as an item of a stream. -/
def sourceErrorRecord (error : SourceError) : StreamRecord :=
  .error error.errorClass.code error.message (isRetryable error.errorClass) (some 1)

/-- The error of a source as the answer of a command. -/
def commandError (error : SourceError) : CommandResult :=
  .error error.errorClass.code error.message (isRetryable error.errorClass) (some 1)

section

variable [ExternalParsers]

/-- Checks a record and writes it. -/
def validateAndSerialize (record : Record) : Except String Json :=
  match record.validate with
  | .ok () => .ok record.toJson
  | .error error => .error error.message

/-- What a source streams as an item of a stream. -/
def sourceResultToRecord (result : Except SourceError Record) : StreamRecord :=
  match result with
  | .ok record =>
    match validateAndSerialize record with
    | .ok value => .chunk value
    | .error message => .error "serialization" message false (some 1)
  | .error error => sourceErrorRecord error

/-- A fetched record as the answer of a command. -/
def chunkResult (record : Record) : CommandResult :=
  match validateAndSerialize record with
  | .ok data => .ok data
  | .error message => .error "serialization" message false (some 1)

/-! ## Reading -/

variable (decodeError : Json → String)

/-- Reads a query from the options of a command. -/
def queryFromOptions (options : Json) : Except String Query :=
  match Query.fromValue options with
  | none => .error (decodeError options)
  | some query =>
    match query.validate with
    | .ok () => .ok query
    | .error error => .error error.message

/-- Reads a target from the options of a command. -/
def targetFromOptions (options : Json) : Except String Target :=
  match Target.fromValue options with
  | none => .error (decodeError options)
  | some target =>
    match target.validate with
    | .ok () => .ok target
    | .error error => .error error.message

/-! ## Commands -/

/-- A command of a source. -/
structure SourceCommand where
  descriptor : SourceDescriptor
  operation : OperationKind
  runtime : SourceRuntime

namespace SourceCommand

variable (command : SourceCommand)

/-- The error of a command that cannot read its input. -/
def localError (message : String) : SourceError :=
  ⟨command.descriptor.id, .invalidQuery, message, none⟩

/-- A target of another source is refused. -/
def validateTargetSource (target : Target) : Except SourceError Unit :=
  if target.source = command.descriptor.id then .ok ()
  else .error ⟨command.descriptor.id, .invalidQuery, "target source does not match command source",
    none⟩

/-- Searches. -/
def search (options : Json) : CommandResult :=
  match queryFromOptions decodeError options with
  | .error message => commandError (command.localError message)
  | .ok query => .recordStream ((command.runtime.search query).map sourceResultToRecord)

/-- Fetches. -/
def fetch (options : Json) : CommandResult :=
  match targetFromOptions decodeError options with
  | .error message => commandError (command.localError message)
  | .ok target =>
    match command.validateTargetSource target with
    | .error error => commandError error
    | .ok () =>
      match command.runtime.fetch target with
      | .ok record => chunkResult record
      | .error error => commandError error

/-- Follows. -/
def follow (options : Json) : CommandResult :=
  match targetFromOptions decodeError options with
  | .error message => commandError (command.localError message)
  | .ok target =>
    match command.validateTargetSource target with
    | .error error => commandError error
    | .ok () => .recordStream ((command.runtime.follow target).map sourceResultToRecord)

/-- Runs the command. -/
def run (options : Json) : CommandResult :=
  match command.operation with
  | .search => command.search decodeError options
  | .fetch => command.fetch decodeError options
  | .follow => command.follow decodeError options

end SourceCommand

end

/-! ## Tools -/

/-- The library that runs commands as tools. -/
class ToolLibrary where
  /-- What the call of a tool comes to, from the answer of its command. -/
  call : CommandResult → ToolRun
  /-- A value is passed on. -/
  call_ok : ∀ data, call (.ok data) = ⟨[], .ok data⟩
  /-- An error is passed on. -/
  call_error : ∀ code message retryable exitCode,
    call (.error code message retryable exitCode) = ⟨[], .error code message retryable exitCode⟩
  /-- The first error of a stream ends the call. -/
  call_stream_error : ∀ chunks code message retryable exitCode rest,
    call (.recordStream (chunks.map .chunk ++ .error code message retryable exitCode :: rest)) =
      ⟨chunks, .error code message retryable exitCode⟩
  /-- The call of a tool that is not there. -/
  unknown : String → ToolRun

namespace ToolLibrary

/-- The chunks of a stream up to its first error, and that error. -/
def streamed : List StreamRecord → ToolRun
  | [] => ⟨[], .ok .null⟩
  | .chunk data :: items => { streamed items with chunks := data :: (streamed items).chunks }
  | .error code message retryable exitCode :: _ => ⟨[], .error code message retryable exitCode⟩

/-- A library that ends a stream without errors with `null`, to evaluate definitions on concrete
inputs. -/
@[reducible] def plain : ToolLibrary where
  call
    | .ok data => ⟨[], .ok data⟩
    | .error code message retryable exitCode => ⟨[], .error code message retryable exitCode⟩
    | .recordStream items => streamed items
  call_ok _ := rfl
  call_error _ _ _ _ := rfl
  call_stream_error chunks code message retryable exitCode rest := by
    induction chunks with
    | nil => rfl
    | cons data chunks ih =>
      simp only [List.map_cons, List.cons_append, streamed] at ih ⊢
      rw [ih]
  unknown name := ⟨[], .error "COMMAND_NOT_FOUND" name false (some 1)⟩

end ToolLibrary

section

variable [ExternalParsers] [ToolLibrary] (decodeError : Json → String)

/-- The tools of a source of the program: a command for each operation it supports. -/
def SourceRuntime.tools (runtime : SourceRuntime) (descriptor : SourceDescriptor) : ToolCatalog :=
  fun tool arguments =>
    let operations := [OperationKind.search, .fetch, .follow]
    match operations.find? fun operation => descriptor.toolName operation = some tool with
    | some operation =>
      ToolLibrary.call ((SourceCommand.mk descriptor operation runtime).run decodeError
        (.obj arguments))
    | none => ToolLibrary.unknown tool

/-- A source of the program as the engine sees it. -/
def CatalogSource.ofRuntime (descriptor : SourceDescriptor) (runtime : SourceRuntime) :
    CatalogSource :=
  ⟨descriptor, runtime.tools decodeError descriptor⟩

end

end Comsat
