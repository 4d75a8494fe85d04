import Comsat.App.WatchIds
import Comsat.Lib.Dialogue
import Comsat.Source.Command
import Comsat.Source.Http
import Comsat.Store.Adapter

set_option relaxedAutoImplicit false
set_option autoImplicit false

/-!
# The commands that use the store

Adding, listing and deleting watches and reading the history: each reads its options, asks the store
once and answers with what the store replies.

## Main definitions

* `parseSince` — a time, or how many days ago.
* `WatchAddOptions`, `WatchDeleteOptions`, `HistoryOptions` — the options, and reading them.
* `watchAdd`, `watchList`, `watchDelete`, `historyCommand` — the commands.
* `callTool` — the call of a tool of the application.

## Main results

* `callTool_asks` — what the tools ask of the store is for the tenant of the application.
* `parseSince_days` — days are counted back from the present, as far as 64 bits reach.

## Design

* What the library makes of arguments and of answers is a parameter, as are the tools that do not use
  the store.
* A command is a dialogue with the store.
-/

namespace Comsat

/-! ## Times -/

/-- A number of 64 bits with sign, or the nearest one. -/
def clampI64 (value : ℤ) : ℤ := max (-2 ^ 63) (min value (2 ^ 63 - 1))

/-- Reads a number of 64 bits with sign from a text, which may begin with a sign. -/
def parseI64 (value : String) : Option ℤ :=
  match value.toList with
  | '-' :: digits => (digitsU64 digits).bind fun n => if n ≤ 2 ^ 63 then some (-n) else none
  | '+' :: digits => (digitsU64 digits).bind fun n => if n < 2 ^ 63 then some n else none
  | digits => (digitsU64 digits).bind fun n => if n < 2 ^ 63 then some n else none

/-- The time from which on the history is read: a time, or days back from now. -/
def parseSince (value : String) (now : ℤ) : Except String ℤ :=
  if value.toList.getLast? = some 'd' then
    match parseI64 (String.ofList value.toList.dropLast) with
    | none => .error "since days must be a number like 30d"
    | some days =>
      if days < 0 then .error "since days must be nonnegative"
      else .ok (clampI64 (now - clampI64 (days * 86400)))
  else
    match parseI64 value with
    | none => .error "since must be an epoch second or a duration like 30d"
    | some since => .ok since

/-- A written number is read back. -/
lemma parseI64_toString {n : ℤ} (h : IsI64 n) : parseI64 (toString n) = some n := by
  obtain ⟨hleast, hgreatest⟩ := h
  rw [Int.toString_eq_repr, Int.repr_eq_if]
  split
  · next hnonneg =>
    have hread := digitsU64_repr (n := n.toNat) (by omega)
    rw [parseI64]
    split
    · next digits hminus =>
      have hdigit : '-'.isDigit = true := Text.isDigit_of_mem_nat_toString (n := n.toNat)
        (by rw [Nat.toString_eq_repr, hminus]; exact List.mem_cons_self)
      exact absurd hdigit (by decide)
    · next digits hplus =>
      have hdigit : '+'.isDigit = true := Text.isDigit_of_mem_nat_toString (n := n.toNat)
        (by rw [Nat.toString_eq_repr, hplus]; exact List.mem_cons_self)
      exact absurd hdigit (by decide)
    · rw [hread, Option.bind_some, if_pos (by omega), Int.toNat_of_nonneg hnonneg]
  · next hneg =>
    have hread := digitsU64_repr (n := (-n).toNat) (by omega)
    have hlist : ("-" ++ (-n).toNat.repr).toList = '-' :: (-n).toNat.repr.toList := by
      rw [String.toList_append]
      rfl
    rw [parseI64, hlist]
    simp only [hread, Option.bind_some]
    rw [if_pos (by omega), Int.toNat_of_nonneg (by omega), Int.neg_neg]

/-- **A number of days** is counted back from the present. -/
theorem parseSince_days {days : ℕ} (h : days < 2 ^ 63) (now : ℤ) :
    parseSince (toString (days : ℤ) ++ "d") now =
      .ok (clampI64 (now - clampI64 (days * 86400))) := by
  have hlist : (toString (days : ℤ) ++ "d").toList = (toString (days : ℤ)).toList ++ ['d'] := by
    rw [String.toList_append]
    rfl
  have hread : parseI64 (toString (days : ℤ)) = some (days : ℤ) :=
    parseI64_toString ⟨by omega, by omega⟩
  rw [parseSince, hlist, if_pos List.getLast?_concat, List.dropLast_concat, String.ofList_toList,
    hread]
  dsimp only
  rw [if_neg (by omega)]

/-! ## Answers -/

/-- What the call of a tool comes to. -/
inductive ToolOutcome where
  | ok (data : Json)
  | error (code message : String) (retryable : Bool) (fieldErrors cta : Json) (exitCode : Option ℕ)

/-- The answer of a command whose answers have a type. -/
inductive TypedResult where
  | ok (data : Json)
  | error (code message : String)

/-- The watch as the serializer writes it. -/
def Watch.toJson (watch : Watch) : Json :=
  .obj [("tenant_id", .str watch.tenantId), ("watch_id", .str watch.watchId),
    ("query", watch.query.toJson),
    ("source_ids", .arr (watch.sourceIds.map fun source => .str source.value)),
    ("interval_seconds", .int watch.intervalSeconds), ("cursor", watch.cursor),
    ("enabled", .bool watch.enabled),
    ("created_at_epoch_seconds", .int watch.createdAtEpochSeconds),
    ("next_due_epoch_seconds", .int watch.nextDueEpochSeconds),
    ("lease_owner", .optStr watch.leaseOwner),
    ("lease_expires_epoch_seconds", Json.ofOption .int watch.leaseExpiresEpochSeconds)]

/-- An error of the store. -/
def typedStoreError (error : StoreError) : TypedResult := .error "operational" error.toText

/-- An error of reading the history. -/
def historyError (code message : String) (exitCode : ℕ) : CommandResult :=
  .error code message false (some exitCode)

/-! ## Options -/

/-- The options of adding a watch. -/
structure WatchAddOptions where
  watchId : Option String
  query : String
  intervalSeconds : Option ℕ
  source : List String
  limit : Option ℕ

/-- The options of deleting a watch. -/
structure WatchDeleteOptions where
  watch : String

/-- The options of reading the history. -/
structure HistoryOptions where
  watch : Option String
  since : Option String
  limit : Option ℕ

/-- Reads the options of adding a watch. -/
def WatchAddOptions.fromValue (value : Json) : Option WatchAddOptions := do
  match ← Json.fields ["watch_id", "query", "interval_seconds", "source", "limit"] value with
  | [watchId, query, intervalSeconds, source, limit] =>
    return { watchId := ← Json.decodeOptString watchId
             query := ← Json.decodeString query
             intervalSeconds := ← Json.optional Json.asU64? intervalSeconds
             source := ← match source with
               | none => some []
               | some source => Json.items Json.asStr? source
             limit := ← Json.decodeOptU32 limit }
  | _ => none

/-- Reads the options of deleting a watch. -/
def WatchDeleteOptions.fromValue (value : Json) : Option WatchDeleteOptions := do
  match ← Json.fields ["watch"] value with
  | [watch] => return ⟨← Json.decodeString watch⟩
  | _ => none

/-- Reads the options of reading the history. -/
def HistoryOptions.fromValue (value : Json) : Option HistoryOptions := do
  match ← Json.fields ["watch", "since", "limit"] value with
  | [watch, since, limit] =>
    return ⟨← Json.decodeOptString watch, ← Json.decodeOptString since, ← Json.decodeOptU32 limit⟩
  | _ => none

/-! ## The commands -/

/-- A dialogue with the store. -/
abbrev StoreDialogue (α : Type) := Dialogue StoreOp StoreReply α

/-- What a reply says that is none to the operation; there is no such reply. -/
def strayReply {α : Type} : StoreResult α := .error (.backend "unexpected reply")

/-- The reply to the creation of a watch. -/
def StoreReply.created : StoreReply → StoreResult Watch
  | watchCreated result => result
  | _ => strayReply

/-- The reply to a listing of the watches. -/
def StoreReply.listed : StoreReply → StoreResult (List Watch)
  | watchesListed result => result
  | _ => strayReply

/-- The reply to the deletion of a watch. -/
def StoreReply.deleted : StoreReply → StoreResult Bool
  | watchDeleted result => result
  | _ => strayReply

/-- The reply to a reading of the history. -/
def StoreReply.read : StoreReply → StoreResult (List RecordObservation)
  | historyRead result => result
  | _ => strayReply

/-- Reads the identifiers of sources. -/
def parseSourceIds (raw : List String) : Except String (List SourceId) :=
  raw.mapM fun value => (SourceId.new value).mapError ValidationError.message

section Commands

variable (app : ComsatApp)

/-- How long the watches that are added wait between runs, if nothing is said. -/
def defaultWatchIntervalSeconds : ℕ := 300

/-- Adds a watch. -/
def watchAdd (now : ℤ) (options : WatchAddOptions) : StoreDialogue TypedResult :=
  match parseSourceIds options.source with
  | .error message => .done (typedStoreError (.validation message))
  | .ok sourceIds =>
    .ask (.createWatch
      { tenantId := app.tenantId
        watchId := options.watchId.getD (generatedWatchId options.query now)
        query := ⟨options.query, options.limit, none, none⟩
        sourceIds
        intervalSeconds := options.intervalSeconds.getD defaultWatchIntervalSeconds
        cursor := .obj []
        enabled := true
        createdAtEpochSeconds := now
        firstDueEpochSeconds := none })
      fun reply => .done <|
        match reply.created with
        | .ok watch => .ok watch.toJson
        | .error error => typedStoreError error

/-- Lists the watches. -/
def watchList : StoreDialogue TypedResult :=
  .ask (.listWatches app.tenantId) fun reply => .done <|
    match reply.listed with
    | .ok watches => .ok (.obj [("watches", .arr (watches.map Watch.toJson))])
    | .error error => typedStoreError error

/-- Deletes a watch. -/
def watchDelete (options : WatchDeleteOptions) : StoreDialogue TypedResult :=
  .ask (.deleteWatch ⟨app.tenantId, options.watch⟩) fun reply => .done <|
    match reply.deleted with
    | .ok deleted => .ok (.obj [("deleted", .bool deleted)])
    | .error error => typedStoreError error

/-- Reads the history. -/
def historyRecords (now : ℤ) (options : HistoryOptions) :
    StoreDialogue (Except CommandResult (List RecordObservation)) :=
  let request (since : Option ℤ) : StoreDialogue (Except CommandResult (List RecordObservation)) :=
    .ask (.history ⟨app.tenantId, options.watch, since, options.limit.getD 100⟩) fun reply =>
      .done (reply.read.mapError fun error => historyError "operational" error.toText 1)
  match options.since with
  | none => request none
  | some value =>
    match parseSince value now with
    | .error message => .done (.error (historyError "invalid_query" message 2))
    | .ok since => request (some since)

/-- Reads the history, and streams the records. -/
def historyCommand (decodeError : Json → String) (now : ℤ) (options : Json) :
    StoreDialogue CommandResult :=
  match HistoryOptions.fromValue options with
  | none => .done (historyError "invalid_query" (decodeError options) 2)
  | some options =>
    (historyRecords app now options).map fun
      | .ok observations =>
        .recordStream (observations.map fun observation => .chunk observation.record.toJson)
      | .error result => result

end Commands

/-! ## Tools -/

/-- The library that runs the commands of the application as tools. -/
class AppToolLibrary where
  /-- The options of a tool, from its arguments. -/
  options : String → List (String × Json) → Except ToolOutcome Json
  /-- What the call of a tool comes to whose options cannot be read. -/
  invalidOptions : String → Json → ToolOutcome
  /-- The text about options that cannot be read. -/
  decodeError : Json → String
  typed : TypedResult → ToolOutcome
  command : CommandResult → ToolOutcome

/-- A library that passes everything on, to evaluate definitions on concrete inputs. -/
@[reducible] def AppToolLibrary.plain : AppToolLibrary where
  options _ arguments := .ok (.obj arguments)
  invalidOptions tool _ := .error "VALIDATION_ERROR" tool false (.arr []) .null none
  decodeError _ := "invalid"
  typed
    | .ok data => .ok data
    | .error code message => .error code message false (.arr []) .null none
  command
    | .ok data => .ok data
    | .error code message retryable exitCode => .error code message retryable (.arr []) .null exitCode
    | .recordStream items => .ok (.arr (items.filterMap fun
        | .chunk data => some data
        | .error _ _ _ _ => none))

/-- What is around the call of a tool: the time, and what comes of a tool that uses the sources
instead of the store. That is arbitrary here: it depends on the sources, and on the cooldowns that
all calls within one process share. -/
structure ToolWorld where
  now : ℤ
  elsewhere : String → List (String × Json) → ToolOutcome

/-- The tools that use the store. -/
def isStoreTool (tool : String) : Bool :=
  ["watch_add", "watch_list", "watch_delete", "history"].contains tool

section

variable [AppToolLibrary]

/-- Calls a command whose answers have a type. -/
def callTyped {α : Type} (tool : String) (read : Json → Option α)
    (run : α → StoreDialogue TypedResult) (options : Json) : StoreDialogue ToolOutcome :=
  match read options with
  | none => .done (AppToolLibrary.invalidOptions tool options)
  | some options => (run options).map AppToolLibrary.typed

/-- Calls a tool of the application. -/
def callTool (app : ComsatApp) (world : ToolWorld) (tool : String)
    (arguments : List (String × Json)) : StoreDialogue ToolOutcome :=
  match AppToolLibrary.options tool arguments with
  | .error outcome => .done outcome
  | .ok options =>
    match tool with
    | "watch_add" =>
      callTyped "watch_add" WatchAddOptions.fromValue (watchAdd app world.now) options
    | "watch_list" => callTyped "watch_list" some (fun _ => watchList app) options
    | "watch_delete" =>
      callTyped "watch_delete" WatchDeleteOptions.fromValue (watchDelete app) options
    | "history" =>
      (historyCommand app AppToolLibrary.decodeError world.now options).map AppToolLibrary.command
    | tool => .done (world.elsewhere tool arguments)

/-- A call of a tool that uses the store does not depend on the sources. -/
lemma callTool_congr (app : ComsatApp) {world world' : ToolWorld} (hnow : world.now = world'.now)
    {tool : String} (htool : isStoreTool tool = true) (arguments : List (String × Json)) :
    callTool app world tool arguments = callTool app world' tool arguments := by
  rw [isStoreTool, List.contains_iff_mem] at htool
  simp only [List.mem_cons, List.not_mem_nil, or_false] at htool
  rcases htool with rfl | rfl | rfl | rfl <;> simp only [callTool, hnow]

/-- A call of a tool that uses the sources asks nothing of the store. -/
lemma callTool_asks_nothing (app : ComsatApp) (world : ToolWorld) {tool : String}
    (htool : isStoreTool tool = false) (arguments : List (String × Json)) :
    (callTool app world tool arguments).Asks fun _ => False := by
  rw [callTool]
  split
  · trivial
  -- the tools that use the store are excluded
  split <;> trivial

/-! ## What is asked -/

/-- The operation reads the store only. -/
def StoreOp.isRead : StoreOp → Bool
  | listWatches _ => true
  | history _ => true
  | listDeliveries _ => true
  | _ => false

/-- What a tool may ask for a tenant: to create and delete watches, and to read. -/
def CommandOp (tenantId tool : String) (op : StoreOp) : Prop :=
  op.tenantId = tenantId ∧ (op.isRead = true ∨
    (tool = "watch_add" ∧ ∃ request, op = .createWatch request) ∨
      tool = "watch_delete" ∧ ∃ request, op = .deleteWatch request)

/-- A command whose answers have a type asks what its body asks. -/
private lemma callTyped_asks {α : Type} {tool : String} {read : Json → Option α}
    {run : α → StoreDialogue TypedResult} {p : StoreOp → Prop} (h : ∀ options, (run options).Asks p)
    (options : Json) : (callTyped tool read run options).Asks p := by
  rw [callTyped]
  split
  · trivial
  · next options' _ => exact (h options').map _

/-- **What the tools ask** is for the tenant of the application; only two of them ask for changes. -/
theorem callTool_asks (app : ComsatApp) (world : ToolWorld) (tool : String)
    (arguments : List (String × Json)) :
    (callTool app world tool arguments).Asks (CommandOp app.tenantId tool) := by
  rw [callTool]
  split
  · trivial
  split
  · refine callTyped_asks (fun options => ?_) _
    rw [watchAdd]
    split
    · trivial
    · exact ⟨⟨rfl, .inr (.inl ⟨rfl, _, rfl⟩)⟩, fun _ => trivial⟩
  · refine callTyped_asks (fun options => ?_) _
    exact ⟨⟨rfl, .inl rfl⟩, fun _ => trivial⟩
  · refine callTyped_asks (fun options => ?_) _
    exact ⟨⟨rfl, .inr (.inr ⟨rfl, _, rfl⟩)⟩, fun _ => trivial⟩
  · refine Dialogue.Asks.map ?_ _
    rw [historyCommand]
    split
    · trivial
    · refine Dialogue.Asks.map ?_ _
      rw [historyRecords]
      split
      · exact ⟨⟨rfl, .inl rfl⟩, fun _ => trivial⟩
      · split
        · trivial
        · exact ⟨⟨rfl, .inl rfl⟩, fun _ => trivial⟩
  · trivial

end

end Comsat
