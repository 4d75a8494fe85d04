import Comsat.App.StoreCommands
import Comsat.Cloud.QueueRuns
import Comsat.Cloud.Tenants
import Comsat.Lib.Chunks
import Comsat.Lib.Headers
import Comsat.Store.Tenancy

set_option relaxedAutoImplicit false
set_option autoImplicit false

/-!
# The requests to the Worker

The Worker answers requests over HTTP: it lets in the origins that are configured, finds out for which
tenant a request is made, and calls the tools of the application for this tenant. Many requests are
answered at once, while scheduled invocations and the queue use the same store.

## Main definitions

* `CloudRequest`, `CloudResponse` — requests and responses.
* `routeRequest` — the dialogue of a request with the store.
* `CloudRequest.caller` — the tenant for whom a request reaches the tools.
* `CloudRequest.callsSource`, `CloudRequest.McpUsesStore` — which tools a request calls.
* `D1Store.withOutages`, `workerRequests` — the store, which may not be reached, and all requests that
  are made to it.

## Main results

* `routeRequest_asks` — what a request asks of the store.
* `worker_requests_isolated` — the responses to the requests of a tenant that use the store do not
  depend on anything that is done for other tenants, nor on the sources.

## Design

* Which tools are called through MCP is decided by a library, which sees nothing but the request and
  what the tools come to: it is a dialogue with them.
* The path and the query of a request can always be read in its URL.
* Searching, fetching and following are left out of the isolation: the requests that an isolate
  answers share the cooldowns of the sources, whichever tenants they are made for.
-/

namespace Comsat

open Json

/-! ## Requests and responses -/

/-- A request to the Worker. -/
structure CloudRequest where
  method : String
  path : String
  /-- The pairs of its query. -/
  query : List (String × String)
  headers : Headers
  /-- Its body as it arrives; reading it may fail. -/
  body : List (Except WorkerError (List UInt8))

/-- The body of a response. -/
inductive CloudBody where
  | empty
  | text (value : String)
  | json (value : Json)
  /-- The page for visitors. -/
  | landing

/-- A response of the Worker. -/
structure CloudResponse where
  status : ℕ
  headers : Headers
  body : CloudBody

namespace CloudResponse

/-- A response that is an error. -/
def error (message : String) (status : ℕ) : CloudResponse := ⟨status, [], .text message⟩

/-- A response that is a JSON value. -/
def fromJson (value : Json) : CloudResponse := ⟨200, [("Content-Type", "application/json")], .json value⟩

/-- A response with another status. -/
def withStatus (response : CloudResponse) (status : ℕ) : CloudResponse := { response with status }

end CloudResponse

/-! ## Origins -/

/-- Whether a response says already that it depends on the origin. -/
def hasOriginVary (value : String) : Bool :=
  (Text.split ',' value).any fun entry =>
    Headers.lower (String.ofList (Web.trim entry.toList)) = "origin"

/-- Says that a response depends on the origin. -/
def applyVaryOrigin (headers : Headers) : Headers :=
  match headers.get "Vary" with
  | none => headers.set "Vary" "Origin"
  | some current => if hasOriginVary current then headers else headers.set "Vary" (current ++ ", Origin")

/-- Lets the pages of an origin read a response. -/
def applyCors (headers : Headers) (origin : Option String) : Headers :=
  let headers := match origin with
    | some origin => headers.set "Access-Control-Allow-Origin" origin
    | none => headers
  let headers := headers.set "Access-Control-Allow-Headers"
    "Authorization, Content-Type, Accept, MCP-Protocol-Version"
  let headers := headers.set "Access-Control-Allow-Methods" "GET, POST, OPTIONS"
  applyVaryOrigin headers

/-- A response that the pages of an origin can read. -/
def withCors (response : CloudResponse) (origin : Option String) : CloudResponse :=
  { response with headers := applyCors response.headers origin }

/-- The response to a browser that asks whether it may make a request. -/
def preflight (origin : Option String) : CloudResponse :=
  withCors ⟨204, [], .empty⟩ origin

/-! ## Bodies -/

/-- Why a body is not read. -/
inductive BodyReadError where
  | tooLarge
  | worker (error : WorkerError)

/-- The most bytes of a body. -/
def maxHttpBodyBytes : ℕ := 1024 * 1024

/-- Whether a request announces too large a body. -/
def contentLengthExceeds (request : CloudRequest) (maxBytes : ℕ) : Bool :=
  ((request.headers.get "Content-Length").bind parseUsize).any fun length => maxBytes < length

/-- Reads the body of a request. -/
def readBoundedBody (request : CloudRequest) (maxBytes : ℕ) : Except BodyReadError String :=
  if contentLengthExceeds request maxBytes then .error .tooLarge
  else
    match Chunks.read maxBytes .tooLarge (request.body.map (·.mapError .worker)) with
    | .error error => .error error
    | .ok bytes =>
      match ofUtf8 bytes with
      | some body => .ok body
      | none => .error (.worker (.body "invalid utf-8 sequence"))

/-! ## MCP -/

/-- A request for the MCP library. -/
structure McpHttpRequest where
  method : String
  path : String
  headers : Headers
  body : Option String
  allowedOrigins : List String

/-- A response of the MCP library. -/
structure McpHttpResponse where
  status : ℕ
  headers : Headers
  body : Option Json

/-- The MCP library, which calls tools to answer a request. -/
class McpLibrary where
  handle : McpHttpRequest → Dialogue (String × List (String × Json)) ToolOutcome McpHttpResponse

/-! ## Routes -/

/-- Whether a request is one for the page for visitors. -/
def isLandingRequest (method path : String) : Bool :=
  (path = "/" || path = "/index.html") &&
    (Headers.lower method = "get" || Headers.lower method = "head")

/-- The page for visitors. -/
def landingPage : CloudResponse where
  status := 200
  headers := [("Content-Type", "text/html; charset=utf-8"),
    ("Cache-Control", "public, max-age=60, must-revalidate"), ("X-Content-Type-Options", "nosniff")]
  body := .landing

/-- The tool of a path. -/
def toolForPath (path : String) : Option String :=
  ([("/search", "comsat_search"), ("/fetch", "comsat_fetch"), ("/follow", "comsat_follow"),
    ("/watch/add", "watch_add"), ("/watch/list", "watch_list"),
    ("/watch/delete", "watch_delete")].find? fun route => path = route.1).map Prod.snd

/-- The response to arguments that cannot be read. -/
def invalidArguments (message : String) : CloudResponse :=
  (CloudResponse.fromJson (.obj [("error", .obj [("code", .str "invalid_query"),
    ("message", .str message)])])).withStatus 400

/-- The response for what a tool comes to. -/
def toolOutcomeResponse : ToolOutcome → CloudResponse
  | .ok data => .fromJson data
  | .error code message retryable fieldErrors cta exitCode =>
    let body := Json.obj [("error", .obj [("code", .str code), ("message", .str message),
      ("retryable", .bool retryable), ("field_errors", fieldErrors), ("cta", cta),
      ("exit_code", .optNat exitCode)])]
    let response := (CloudResponse.fromJson body).withStatus 400
    { response with headers := response.headers.set "Content-Type" "application/json" }

/-- The response to a request that is made for nobody. -/
def unauthorized : CloudResponse :=
  let response := CloudResponse.error "Unauthorized" 401
  { response with headers := response.headers.set "WWW-Authenticate" "Bearer" }

/-- The first value of a name in the query. -/
def queryPair (request : CloudRequest) (name : String) : Option String :=
  (request.query.find? fun pair => pair.1 = name).map Prod.snd

/-- The application of a tenant in the Worker. -/
def cloudApp (tenantId : String) : ComsatApp := ⟨"comsat-cloud", tenantId, none⟩

section Routes

variable [AppToolLibrary]

/-- The arguments of reading the history, from the query. -/
def historyArguments (request : CloudRequest) : Except CloudResponse (List (String × Json)) :=
  let texts := ["watch", "since"].filterMap fun name =>
    (queryPair request name).map fun value => (name, Json.str value)
  match queryPair request "limit" with
  | none => .ok (SortedMap.ofList texts).entries
  | some value =>
    match (parseU64 value).filter (· < 2 ^ 32) with
    | none => .error (invalidArguments "limit must be a nonnegative integer")
    | some limit =>
      .ok (SortedMap.ofList (texts ++ [("limit", Json.int limit)])).entries

/-- The response to a request that reads the history. -/
def historyResponse (app : ComsatApp) (world : ToolWorld) (request : CloudRequest) :
    StoreDialogue CloudResponse :=
  if Headers.lower request.method ≠ "get" then .done (.error "Method not allowed" 405)
  else
    match historyArguments request with
    | .error response => .done response
    | .ok arguments => (callTool app world "history" arguments).map toolOutcomeResponse

/-- The response to a request that calls a tool. -/
def toolResponse [JsonReader] (app : ComsatApp) (world : ToolWorld) (request : CloudRequest)
    (tool : String) : StoreDialogue (Except WorkerError CloudResponse) :=
  if Headers.lower request.method ≠ "post" then .done (.ok (.error "Method not allowed" 405))
  else
    match readBoundedBody request maxHttpBodyBytes with
    | .error .tooLarge => .done (.ok (.error "Request body is too large" 413))
    | .error (.worker error) => .done (.error error)
    | .ok body =>
      match stringMap some body with
      | none => .done (.ok (invalidArguments "tool arguments must be a JSON object"))
      | some arguments =>
        (callTool app world tool arguments.entries).map fun outcome => .ok (toolOutcomeResponse outcome)

/-- The response to a request over MCP. -/
def mcpResponse [McpLibrary] (app : ComsatApp) (worlds : ℕ → ToolWorld) (request : CloudRequest) :
    StoreDialogue (Except WorkerError CloudResponse) :=
  let handle (body : Option String) : StoreDialogue (Except WorkerError CloudResponse) :=
    ((McpLibrary.handle ⟨request.method, request.path, request.headers, body,
      (request.headers.get "Origin").toList⟩).expand
        (fun n call => callTool app (worlds n) call.1 call.2) 0).map fun response =>
      .ok ⟨response.status, response.headers.foldl (fun headers header =>
        headers.set header.1 header.2) [("Content-Type", "application/json")],
        .json (response.body.getD (.obj []))⟩
  if Headers.lower request.method = "post" then
    match readBoundedBody request maxHttpBodyBytes with
    | .error .tooLarge => .done (.ok (.error "MCP request body is too large" 413))
    | .error (.worker error) => .done (.error error)
    | .ok body => handle (some body)
  else handle none

/-- The response to a request of a tenant. -/
def dispatchRequest [JsonReader] [McpLibrary] (app : ComsatApp) (worlds : ℕ → ToolWorld)
    (request : CloudRequest) : StoreDialogue (Except WorkerError CloudResponse) :=
  match request.path with
  | "/health" => .done (.ok (.fromJson (.obj [("ok", .bool true)])))
  | "/mcp" => mcpResponse app worlds request
  | "/history" => (historyResponse app (worlds 0) request).map .ok
  | path =>
    match toolForPath path with
    | none => .done (.ok (.error "Not found" 404))
    | some tool => toolResponse app (worlds 0) request tool

variable [JsonReader] (env : CloudEnv)

/-- The tenant that a request is made for. -/
def authorizedTenant (request : CloudRequest) : Except WorkerError (Option String) :=
  match env.tenantTokenMap with
  | .error error => .error error
  | .ok tokens =>
    match tokens.resolve (request.headers.get "Authorization") with
    | .ok identity => .ok (some identity.tenantId)
    | .error .missingBearer => .ok none
    | .error .unknownToken => .ok none
    | .error error => .error (.auth error)

/-- The response to a request. -/
def routeRequest [McpLibrary] (worlds : ℕ → ToolWorld) (request : CloudRequest) :
    StoreDialogue (Except WorkerError CloudResponse) :=
  if isLandingRequest request.method request.path then .done (.ok landingPage)
  else
    let origin := request.headers.get "Origin"
    if originAllowed origin env.allowedOrigins then
      if request.method = "OPTIONS" then .done (.ok (preflight origin))
      else
        match authorizedTenant env request with
        | .error error => .done (.error error)
        | .ok none => .done (.ok (withCors unauthorized origin))
        | .ok (some tenantId) =>
          (dispatchRequest (cloudApp tenantId) worlds request).map fun response =>
            response.map fun response => withCors response origin
    else .done (.ok (.error "Origin is not allowed" 403))

/-- The tenant for whom a request reaches the tools. -/
def CloudRequest.caller (request : CloudRequest) : Option String :=
  if isLandingRequest request.method request.path then none
  else if originAllowed (request.headers.get "Origin") env.allowedOrigins then
    if request.method = "OPTIONS" then none else ((authorizedTenant env request).toOption).join
  else none

end Routes

/-! ## What a request asks -/

section Asks

variable [AppToolLibrary] [JsonReader] [McpLibrary]

/-- Whether a request may change the store: it is one of the two tools that do, or MCP. -/
def CloudRequest.MayWrite (request : CloudRequest) : Prop :=
  request.path = "/mcp" ∨ (Headers.lower request.method = "post" ∧
    (request.path = "/watch/add" ∨ request.path = "/watch/delete"))

/-- What a request may ask for a tenant. -/
def CloudRequest.MayAsk (request : CloudRequest) (tenantId : String) (op : StoreOp) : Prop :=
  op.tenantId = tenantId ∧ (op.isRead = true ∨ request.MayWrite)

/-- What is asked for a request that reaches the tools. -/
lemma dispatchRequest_asks (tenantId : String) (worlds : ℕ → ToolWorld) (request : CloudRequest) :
    (dispatchRequest (cloudApp tenantId) worlds request).Asks (request.MayAsk tenantId) := by
  rw [dispatchRequest]
  split
  · trivial
  · next hpath =>
    have hmay : ∀ tool op, CommandOp (cloudApp tenantId).tenantId tool op →
        request.MayAsk tenantId op := fun tool op hop => ⟨hop.1, .inr (.inl hpath)⟩
    have hhandle : ∀ (d : Dialogue (String × List (String × Json)) ToolOutcome McpHttpResponse) n,
        (d.expand (fun n call => callTool (cloudApp tenantId) (worlds n) call.1 call.2) n).Asks
          (request.MayAsk tenantId) := fun d n =>
      Dialogue.Asks.expand (fun n call => (callTool_asks _ _ _ _).mono (hmay call.1)) d n
    rw [mcpResponse]
    dsimp only
    split
    · split
      · trivial
      · trivial
      · exact (hhandle _ _).map _
    · exact (hhandle _ _).map _
  · refine Dialogue.Asks.map ?_ _
    rw [historyResponse]
    split
    · trivial
    split
    · trivial
    · refine Dialogue.Asks.map ((callTool_asks _ _ _ _).mono fun op hop => ⟨hop.1, ?_⟩) _
      obtain hread | ⟨htool, -⟩ | ⟨htool, -⟩ := hop.2
      · exact .inl hread
      · exact absurd htool (by decide)
      · exact absurd htool (by decide)
  · next path _ _ _ hpath =>
    split
    · trivial
    · next tool htool =>
      rw [toolResponse]
      split
      · trivial
      · next hmethod =>
        split
        · trivial
        · trivial
        · split
          · trivial
          · refine Dialogue.Asks.map ((callTool_asks _ _ _ _).mono fun op hop => ⟨hop.1, ?_⟩) _
            have hpost : Headers.lower request.method = "post" := not_not.mp hmethod
            obtain ⟨route, hroute, rfl⟩ := Option.map_eq_some_iff.mp htool
            have heq : request.path = route.1 := by
              have h := List.find?_some hroute
              simpa using h
            have hmem := List.mem_of_find?_eq_some hroute
            obtain hread | ⟨htool, -⟩ | ⟨htool, -⟩ := hop.2
            · exact .inl hread
            · refine .inr (.inr ⟨hpost, .inl ?_⟩)
              simp only [List.mem_cons, List.not_mem_nil, or_false] at hmem
              rcases hmem with rfl | rfl | rfl | rfl | rfl | rfl <;>
                first | exact absurd htool (by decide) | exact heq
            · refine .inr (.inr ⟨hpost, .inr ?_⟩)
              simp only [List.mem_cons, List.not_mem_nil, or_false] at hmem
              rcases hmem with rfl | rfl | rfl | rfl | rfl | rfl <;>
                first | exact absurd htool (by decide) | exact heq

/-- **What a request asks**: nothing, unless it reaches the tools for a tenant; and then only for this
tenant, and only what the request may ask. -/
theorem routeRequest_asks (env : CloudEnv) (worlds : ℕ → ToolWorld) (request : CloudRequest) :
    (routeRequest env worlds request).Asks fun op =>
      ∃ tenantId, request.caller env = some tenantId ∧ request.MayAsk tenantId op := by
  rw [routeRequest]
  split
  · trivial
  next hlanding =>
  dsimp only
  split
  · next horigin =>
    split
    · trivial
    next hmethod =>
    split
    · trivial
    · trivial
    · next tenantId htenant =>
      have hcaller : request.caller env = some tenantId := by
        rw [CloudRequest.caller, if_neg hlanding, if_pos horigin, if_neg hmethod, htenant]
        rfl
      exact ((dispatchRequest_asks tenantId worlds request).mono
        fun op hop => ⟨tenantId, hcaller, hop⟩).map _
  · trivial

end Asks

/-! ## What a request calls -/

section Calls

variable [AppToolLibrary] [JsonReader] [McpLibrary]

/-- Whether the path of a request is that of a tool that uses the sources. -/
def CloudRequest.callsSource (request : CloudRequest) : Bool :=
  (toolForPath request.path).any fun tool => !isStoreTool tool

/-- Over MCP, the request calls tools that use the store only, whatever they come to. -/
def CloudRequest.McpUsesStore (request : CloudRequest) : Prop :=
  ∀ body, (McpLibrary.handle ⟨request.method, request.path, request.headers, body,
    (request.headers.get "Origin").toList⟩).Asks fun call => isStoreTool call.1 = true

/-- A request that reaches the tools, and calls those that use the store, does not depend on the
sources. -/
lemma dispatchRequest_congr (app : ComsatApp) {worlds worlds' : ℕ → ToolWorld}
    (hnow : ∀ n, (worlds n).now = (worlds' n).now) {request : CloudRequest}
    (hpath : request.callsSource = false) (hmcp : request.path = "/mcp" → request.McpUsesStore) :
    dispatchRequest app worlds request = dispatchRequest app worlds' request := by
  rw [dispatchRequest, dispatchRequest]
  split
  · rfl
  · next hroute =>
    have hexpand : ∀ body n, (McpLibrary.handle ⟨request.method, request.path, request.headers, body,
        (request.headers.get "Origin").toList⟩).expand
          (fun n call => callTool app (worlds n) call.1 call.2) n =
        (McpLibrary.handle ⟨request.method, request.path, request.headers, body,
          (request.headers.get "Origin").toList⟩).expand
            (fun n call => callTool app (worlds' n) call.1 call.2) n := fun body =>
      Dialogue.expand_congr (fun n call htool => callTool_congr app (hnow n) htool call.2)
        (hmcp hroute body)
    simp only [mcpResponse, hexpand]
  · have hcall : ∀ arguments, callTool app (worlds 0) "history" arguments =
        callTool app (worlds' 0) "history" arguments :=
      callTool_congr app (hnow 0) (by decide)
    simp only [historyResponse, hcall]
  · split
    · rfl
    · next tool htool =>
      rw [CloudRequest.callsSource, htool, Option.any_some, Bool.not_eq_false'] at hpath
      simp only [toolResponse, callTool_congr app (hnow 0) hpath]

/-- A request that calls tools that use the store does not depend on the sources. -/
lemma routeRequest_congr (env : CloudEnv) {worlds worlds' : ℕ → ToolWorld}
    (hnow : ∀ n, (worlds n).now = (worlds' n).now) {request : CloudRequest}
    (hpath : request.callsSource = false) (hmcp : request.path = "/mcp" → request.McpUsesStore) :
    routeRequest env worlds request = routeRequest env worlds' request := by
  simp only [routeRequest, dispatchRequest_congr _ hnow hpath hmcp]

/-- A request for a tool that uses the sources asks nothing of the store. -/
lemma routeRequest_asks_of_callsSource (env : CloudEnv) (worlds : ℕ → ToolWorld)
    {request : CloudRequest} (hpath : request.callsSource = true) :
    (routeRequest env worlds request).Asks fun _ => False := by
  have hdispatch : ∀ app, (dispatchRequest app worlds request).Asks fun _ => False := by
    intro app
    rw [dispatchRequest]
    split
    · trivial
    · next hroute =>
      rw [CloudRequest.callsSource, hroute] at hpath
      exact absurd hpath (by decide)
    · next hroute =>
      rw [CloudRequest.callsSource, hroute] at hpath
      exact absurd hpath (by decide)
    · split
      · trivial
      · next tool htool =>
        rw [CloudRequest.callsSource, htool, Option.any_some, Bool.not_eq_true'] at hpath
        rw [toolResponse]
        split
        · trivial
        split
        · trivial
        · trivial
        split
        · trivial
        · exact (callTool_asks_nothing app (worlds 0) hpath _).map _
  rw [routeRequest]
  split
  · trivial
  dsimp only
  split
  · split
    · trivial
    split
    · trivial
    · trivial
    · exact (hdispatch _).map _
  · trivial

end Calls

/-! ## All requests -/

/-- What an operation is answered that fails on its way. -/
def StoreOp.failed (op : StoreOp) (message : String) : StoreReply :=
  let error : StoreError := .backend message
  match op with
  | upsertSource _ => .sourceUpserted (.error error)
  | createWatch _ => .watchCreated (.error error)
  | listWatches _ => .watchesListed (.error error)
  | deleteWatch _ => .watchDeleted (.error error)
  | claimDueWatch _ => .watchClaimed (.error error)
  | startWatchRun _ => .runStarted (.error error)
  | completeWatchRun _ => .runCompleted (.error error)
  | history _ => .historyRead (.error error)
  | claimPendingDelivery _ => .deliveryClaimed (.error error)
  | completeDelivery _ => .deliveryCompleted (.error error)
  | listDeliveries _ => .deliveriesListed (.error error)

section

variable [ExternalParsers]

/-- D1, which may not be reached or may not answer. -/
def D1Store.withOutages : Machine Db (StoreOp × Option Outage) StoreReply where
  init := Adapter.d1.store.init
  step db input :=
    match input.2 with
    | none => Adapter.d1.step db input.1
    | some outage =>
      (if outage.carriedOut then (Adapter.d1.step db input.1).1 else db,
        input.1.failed outage.message)

/-- An operation does what it does without outages, or nothing. -/
lemma D1Store.withOutages_cases (db : Db) (op : StoreOp) (outage : Option Outage) :
    (withOutages.step db (op, outage)).1 = db ∨
      (withOutages.step db (op, outage)).1 = (Adapter.d1.step db op).1 := by
  cases outage with
  | none => exact .inr rfl
  | some outage =>
    cases h : outage.carriedOut with
    | false => exact .inl (by simp [withOutages, h])
    | true => exact .inr (by simp [withOutages, h])

/-- The store stays well formed. -/
lemma D1Store.withOutages_wellFormed {db : Db} (hdb : db.WellFormed) (op : StoreOp)
    (outage : Option Outage) : (withOutages.step db (op, outage)).1.WellFormed := by
  obtain h | h := withOutages_cases db op outage
  · rwa [h]
  · rw [h]
    exact (Adapter.d1.step_effect hdb op).wellFormed hdb

/-- An operation of a tenant leaves the rows of the others alone. -/
lemma D1Store.withOutages_ofTenant {db : Db} (hdb : db.WellFormed) {op : StoreOp} {tenantId : String}
    (hne : op.tenantId ≠ tenantId) (outage : Option Outage) :
    (withOutages.step db (op, outage)).1.ofTenant tenantId = db.ofTenant tenantId := by
  obtain h | h := withOutages_cases db op outage
  · rw [h]
  · rw [h]
    exact (Adapter.d1.step_effect hdb op).ofTenant_eq hne

/-- An operation of a tenant is answered from its rows, and acts on them. -/
lemma D1Store.withOutages_own {db db' : Db} (op : StoreOp) (outage : Option Outage)
    (h : db.ofTenant op.tenantId = db'.ofTenant op.tenantId) :
    (withOutages.step db (op, outage)).2 = (withOutages.step db' (op, outage)).2 ∧
      (withOutages.step db (op, outage)).1.ofTenant op.tenantId =
        (withOutages.step db' (op, outage)).1.ofTenant op.tenantId := by
  have hleft := Adapter.d1.step_actsWithin op db
  have hright := Adapter.d1.step_actsWithin op db'
  dsimp only at hleft hright
  rw [h, hright] at hleft
  have hnext := (congrArg Prod.fst hleft).symm
  cases outage with
  | none => exact ⟨(congrArg Prod.snd hleft).symm, hnext⟩
  | some outage =>
    refine ⟨rfl, ?_⟩
    cases hcarried : outage.carriedOut with
    | false => simpa [withOutages, hcarried] using h
    | true => simpa [withOutages, hcarried] using hnext

variable [AppToolLibrary] [JsonReader] [McpLibrary] {κ : Type} [DecidableEq κ]

/-- All requests that are made to the Worker, each with the world as it meets it. -/
def workerRequests (env : CloudEnv) (worlds : κ → ℕ → ToolWorld) (requests : κ → CloudRequest) :
    Machine (Dialogues Db κ StoreOp StoreReply (Except WorkerError CloudResponse))
      (DialogueStep κ StoreOp (Option Outage)) (Option (Except WorkerError CloudResponse)) :=
  dialogues D1Store.withOutages fun k => routeRequest env (worlds k) (requests k)

/-- Whether a step is one for a tenant: of a request that reaches the tools for it and does not call
one for the sources, or of an operation of an invocation or of the queue. -/
def forTenant (env : CloudEnv) (requests : κ → CloudRequest) (tenantId : String) :
    DialogueStep κ StoreOp (Option Outage) → Bool :=
  Dialogues.ours
    (fun k => decide ((requests k).caller env = some tenantId) && !(requests k).callsSource)
    fun op => decide (op.tenantId = tenantId)

end

/-! ### A tenant that reads its history -/

/-- A token. -/
def sampleToken : String := "0123456789abcdef0123456789abcdef"

/-- The tenant of one token. -/
def sampleTokens : TenantTokenMap := ⟨SortedMap.ofList [(sampleToken, "a")], by decide, by decide⟩

/-- The text of their configuration. -/
def sampleMapping : Json := .obj [(sampleToken, .str "a")]

/-- The configuration with one token. -/
def sampleEnv : CloudEnv where
  tenantTokensSecret := none
  tenantTokensVar := some sampleMapping.compact
  tenantWebhooksSecret := none
  tenantWebhooksVar := none
  mcpAllowedOrigins := none
  watchClaimLimit := none
  watchLeaseSeconds := none

/-- A library that reads the text of the configuration. -/
@[reducible] def sampleReader : JsonReader := textReader (utf8Bytes sampleMapping.compact) sampleMapping

/-- A world without other tools. -/
def sampleWorld : ToolWorld := ⟨0, fun _ _ => .ok .null⟩

/-- The tenant is found in the configuration. -/
lemma sampleEnv_tokens :
    letI : JsonReader := sampleReader
    sampleEnv.tenantTokenMap = .ok sampleTokens := by
  let _ : JsonReader := sampleReader
  have hread : JsonReader.read (utf8Bytes sampleMapping.compact) = .ok sampleMapping := if_pos rfl
  have hmap : stringMap Json.asStr? sampleMapping.compact = some sampleTokens.map := by
    rw [stringMap, hread]
    rfl
  have hparse : TenantTokenMap.parse sampleMapping.compact = .ok sampleTokens := by
    rw [TenantTokenMap.parse, hmap]
    exact dif_pos ⟨sampleTokens.nonempty, sampleTokens.valid⟩
  simp only [CloudEnv.tenantTokenMap, sampleEnv, hparse]
  rfl

/-- A world whose sources are in a cooldown. -/
def cooledWorld : ToolWorld :=
  ⟨0, fun _ _ => .error "rate_limited" "cooldown" true .null .null none⟩

/-- A request that reads the history of the tenant, or one that searches for it. -/
def sampleRequests : Bool → CloudRequest
  | true => ⟨"GET", "/history", [], [("Authorization", "Bearer " ++ sampleToken)], []⟩
  | false => ⟨"POST", "/search", [], [("Authorization", "Bearer " ++ sampleToken)], []⟩

end Comsat
