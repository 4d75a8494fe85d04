import Comsat.Cloud.Requests

set_option relaxedAutoImplicit false
set_option autoImplicit false

/-!
# The front door of the Worker

Which requests the Worker lets in, who can read its responses, and what they can change.

## Main definitions

* `CloudRequest.Bears` — a request comes from an origin that is let in, with the token of a tenant.
* `CloudRequest.Answered` — what a request may be answered.

## Main results

* `get_applyCors` — the headers of a response that the pages of an origin can read.
* `routeRequest_returns` — what a request is answered.
* `routeRequest_eq_of_flatten` — how the body of a request is cut does not matter.
* `worker_front_door` — all of it, for every run of the Worker.

## Design

* Only a library can put other headers on a response, which is why the others are said to stay.
-/

namespace Comsat

open Json

/-! ## Headers -/

/-- A text that goes on after a separator has the part after it. -/
lemma mem_split_append (separator : Char) (first last : String) (hlast : separator ∉ last.toList) :
    last ∈ Text.split separator (first ++ (separator.toString ++ last)) := by
  have hne : Text.split separator first ≠ [] := by
    rw [Text.split]
    simp [List.splitOn_ne_nil]
  have hparts : first ++ (separator.toString ++ last) =
      String.intercalate separator.toString (Text.split separator first ++ [last]) := by
    rw [String.intercalate_append_of_ne_nil hne (by simp), Text.intercalate_split,
      String.intercalate_singleton, String.append_assoc]
  rw [hparts, Text.split_intercalate (by simp)]
  · simp
  · intro part hpart
    obtain hmem | hmem := List.mem_append.mp hpart
    · obtain ⟨chars, hchars, rfl⟩ := List.mem_map.mp hmem
      rw [String.toList_ofList]
      exact (Text.of_mem_splitOn hchars).1
    · rwa [List.mem_singleton.mp hmem]

/-- A response that did not depend on the origin does so afterwards. -/
lemma hasOriginVary_append (current : String) : hasOriginVary (current ++ ", Origin") = true := by
  rw [hasOriginVary, List.any_eq_true]
  refine ⟨" Origin", mem_split_append ',' current " Origin" (by decide), by decide⟩

/-- The headers that let the pages of an origin read a response. -/
def corsHeaders : List String :=
  ["access-control-allow-origin", "access-control-allow-headers", "access-control-allow-methods",
    "vary"]

/-- A response depends on the origin afterwards, and all other headers stay. -/
lemma get_applyVaryOrigin (headers : Headers) :
    (∃ value, (applyVaryOrigin headers).get "Vary" = some value ∧ hasOriginVary value = true) ∧
      ∀ name, Headers.lower name ≠ "vary" →
        (applyVaryOrigin headers).get name = headers.get name := by
  have hother : ∀ value name, Headers.lower name ≠ "vary" →
      (headers.set "Vary" value).get name = headers.get name := fun value name hname => by
    rw [Headers.get_set, if_neg]
    exact hname
  rw [applyVaryOrigin]
  split
  · exact ⟨⟨"Origin", Headers.get_set_self _ _ _, by decide⟩, hother _⟩
  · next current hcurrent =>
    split
    · next hvary => exact ⟨⟨current, hcurrent, hvary⟩, fun _ _ => rfl⟩
    · exact ⟨⟨_, Headers.get_set_self _ _ _, hasOriginVary_append current⟩, hother _⟩

/-- **The headers of a response** that the pages of an origin can read: they name the origin, say that
the response depends on it, and are otherwise as they were. -/
theorem get_applyCors (headers : Headers) (origin : Option String) :
    (∀ o ∈ origin, (applyCors headers origin).get "Access-Control-Allow-Origin" = some o) ∧
      (origin = none → (applyCors headers origin).get "Access-Control-Allow-Origin" =
        headers.get "Access-Control-Allow-Origin") ∧
      (∃ value, (applyCors headers origin).get "Vary" = some value ∧ hasOriginVary value = true) ∧
      ∀ name, Headers.lower name ∉ corsHeaders →
        (applyCors headers origin).get name = headers.get name := by
  have hafter : ∀ (hs : Headers) (name : String), Headers.lower name ≠ "access-control-allow-headers" →
      Headers.lower name ≠ "access-control-allow-methods" → Headers.lower name ≠ "vary" →
      (applyVaryOrigin ((hs.set "Access-Control-Allow-Headers"
        "Authorization, Content-Type, Accept, MCP-Protocol-Version").set
          "Access-Control-Allow-Methods" "GET, POST, OPTIONS")).get name = hs.get name := by
    intro hs name hheaders hmethods hvary
    rw [(get_applyVaryOrigin _).2 name hvary, Headers.get_set, if_neg, Headers.get_set, if_neg]
    · exact hheaders
    · exact hmethods
  refine ⟨fun o ho => ?_, fun hnone => ?_, ?_, fun name hname => ?_⟩
  · obtain rfl := Option.mem_def.mp ho
    exact (hafter _ _ (by decide) (by decide) (by decide)).trans (Headers.get_set_self _ _ _)
  · subst hnone
    exact hafter _ _ (by decide) (by decide) (by decide)
  · exact (get_applyVaryOrigin _).1
  · simp only [corsHeaders, List.mem_cons, List.not_mem_nil, or_false, not_or] at hname
    obtain ⟨horigin, hheaders, hmethods, hvary⟩ := hname
    refine (hafter _ _ hheaders hmethods hvary).trans ?_
    cases origin with
    | none => rfl
    | some o =>
      rw [Headers.get_set, if_neg]
      exact horigin

/-! ## What is answered -/

section

variable [AppToolLibrary] [JsonReader] [McpLibrary]

/-- A request comes from an origin that is let in, with the token of a tenant. -/
structure CloudRequest.Bears (request : CloudRequest) (env : CloudEnv) (tenantId : String) : Prop where
  origin : originAllowed (request.headers.get "Origin") env.allowedOrigins = true
  token : ∃ tokens token, env.tenantTokenMap = .ok tokens ∧
    request.headers.get "Authorization" = some ("Bearer " ++ token) ∧
      tokens.map.get? token = some tenantId

omit [AppToolLibrary] [McpLibrary] in
/-- A request that reaches the tools for a tenant bears its token. -/
lemma CloudRequest.bears_of_caller {request : CloudRequest} {env : CloudEnv} {tenantId : String}
    (h : request.caller env = some tenantId) : request.Bears env tenantId := by
  rw [caller] at h
  split at h
  · cases h
  split at h
  · next horigin =>
    split at h
    · cases h
    refine ⟨horigin, ?_⟩
    rw [authorizedTenant] at h
    cases hmap : env.tenantTokenMap with
    | error e =>
      rw [hmap] at h
      cases h
    | ok tokens =>
      rw [hmap] at h
      dsimp only at h
      split at h
      · next identity hresolve =>
        obtain rfl : identity.tenantId = tenantId := Option.some.inj h
        obtain ⟨token, hheader, hget⟩ := tokens.resolve_eq_ok_iff.mp hresolve
        exact ⟨tokens, token, rfl, hheader, hget⟩
      · cases h
      · cases h
      · cases h
  · cases h

/-- What a request may be answered. -/
structure CloudRequest.Answered (request : CloudRequest) (env : CloudEnv)
    (result : Except WorkerError CloudResponse) : Prop where
  /-- Visitors get their page. -/
  landing : isLandingRequest request.method request.path = true → result = .ok landingPage
  /-- Other origins are refused, in a response that their pages cannot read. -/
  refused : isLandingRequest request.method request.path = false →
    originAllowed (request.headers.get "Origin") env.allowedOrigins = false →
      ∃ response, result = .ok response ∧ response.status = 403 ∧
        response.headers.get "Access-Control-Allow-Origin" = none
  /-- The pages of the origins that are let in can read the responses. -/
  cors : isLandingRequest request.method request.path = false →
    originAllowed (request.headers.get "Origin") env.allowedOrigins = true →
      ∀ response, result = .ok response →
        (∀ o ∈ request.headers.get "Origin",
          response.headers.get "Access-Control-Allow-Origin" = some o) ∧
        ∃ value, response.headers.get "Vary" = some value ∧ hasOriginVary value = true
  /-- Who bears no token of a tenant learns nothing else. -/
  unauthorized : isLandingRequest request.method request.path = false →
    originAllowed (request.headers.get "Origin") env.allowedOrigins = true →
      request.method ≠ "OPTIONS" → request.caller env = none →
        ∀ response, result = .ok response → response = withCors unauthorized
          (request.headers.get "Origin")

/-- **What a request is answered**, whatever the store replies. -/
theorem routeRequest_returns (env : CloudEnv) (worlds : ℕ → ToolWorld) (request : CloudRequest) :
    (routeRequest env worlds request).Returns (request.Answered env) := by
  have hcors : ∀ (inner : CloudResponse) (response : CloudResponse),
      (.ok (withCors inner (request.headers.get "Origin")) : Except WorkerError CloudResponse) =
        .ok response →
      (∀ o ∈ request.headers.get "Origin",
        response.headers.get "Access-Control-Allow-Origin" = some o) ∧
      ∃ value, response.headers.get "Vary" = some value ∧ hasOriginVary value = true := by
    intro inner response h
    obtain rfl := Except.ok.inj h
    obtain ⟨hnames, -, hvary, -⟩ := get_applyCors inner.headers (request.headers.get "Origin")
    exact ⟨hnames, hvary⟩
  rw [routeRequest]
  cases hlanding : isLandingRequest request.method request.path with
  | true =>
    rw [if_pos rfl]
    exact ⟨fun _ => rfl, fun h => by simp [hlanding] at h, fun h => by simp [hlanding] at h,
      fun h => by simp [hlanding] at h⟩
  | false =>
    rw [if_neg (by simp)]
    dsimp only
    cases horigin : originAllowed (request.headers.get "Origin") env.allowedOrigins with
    | false =>
      rw [if_neg (by simp)]
      exact ⟨fun h => by simp [hlanding] at h, fun _ _ => ⟨_, rfl, rfl, rfl⟩,
        fun _ h => by simp [horigin] at h, fun _ h => by simp [horigin] at h⟩
    | true =>
      rw [if_pos rfl]
      have hlets : ∀ result : Except WorkerError CloudResponse,
          (∀ response, result = .ok response → ∃ inner, response = withCors inner
            (request.headers.get "Origin")) →
          (request.method ≠ "OPTIONS" → request.caller env = none → ∀ response,
            result = .ok response → response = withCors unauthorized
              (request.headers.get "Origin")) → request.Answered env result := by
        intro result hinner hunauthorized
        refine ⟨fun h => by simp [hlanding] at h, fun _ h => by simp [horigin] at h,
          fun _ _ response h => ?_, fun _ _ => hunauthorized⟩
        obtain ⟨inner, rfl⟩ := hinner response h
        exact hcors inner _ rfl
      split
      · next hmethod =>
        refine hlets _ (fun response h => ⟨_, (Except.ok.inj h).symm⟩) fun hne => ?_
        exact absurd hmethod hne
      · next hmethod =>
        split
        · exact hlets _ (fun response h => by cases h) fun _ _ response h => by cases h
        · exact hlets _ (fun response h => ⟨_, (Except.ok.inj h).symm⟩)
            fun _ _ response h => (Except.ok.inj h).symm
        · next tenantId htenant =>
          refine (Dialogue.returns_true _).map fun result _ => hlets _ (fun response h => ?_)
            fun _ hcaller => ?_
          · cases result with
            | error e => cases h
            | ok inner => exact ⟨inner, (Except.ok.inj h).symm⟩
          · rw [CloudRequest.caller, hlanding, horigin, if_neg (by simp), if_pos rfl,
              if_neg hmethod, htenant] at hcaller
            cases hcaller

/-! ## Bodies -/

omit [AppToolLibrary] [JsonReader] [McpLibrary] in
/-- How a body is cut does not matter for reading it. -/
lemma readBoundedBody_eq_of_flatten (request : CloudRequest) (maxBytes : ℕ)
    {parts parts' : List (List UInt8)} (h : parts.flatten = parts'.flatten) :
    readBoundedBody { request with body := parts.map .ok } maxBytes =
      readBoundedBody { request with body := parts'.map .ok } maxBytes := by
  have hmap : ∀ ps : List (List UInt8), (ps.map (Except.ok (ε := WorkerError))).map
      (·.mapError BodyReadError.worker) = ps.map .ok := fun ps => by
    rw [List.map_map]
    rfl
  simp only [readBoundedBody, hmap, Chunks.read_map_ok, h]
  rfl

/-- **How the body of a request is cut** does not matter for what it asks and is answered. -/
theorem routeRequest_eq_of_flatten (env : CloudEnv) (worlds : ℕ → ToolWorld) (request : CloudRequest)
    {parts parts' : List (List UInt8)} (h : parts.flatten = parts'.flatten) :
    routeRequest env worlds { request with body := parts.map .ok } =
      routeRequest env worlds { request with body := parts'.map .ok } := by
  have hbody := readBoundedBody_eq_of_flatten request maxHttpBodyBytes h
  have hmcp : ∀ app, mcpResponse app worlds { request with body := parts.map .ok } =
      mcpResponse app worlds { request with body := parts'.map .ok } := fun app => by
    simp only [mcpResponse, hbody]
  have htool : ∀ app tool, toolResponse app (worlds 0) { request with body := parts.map .ok } tool =
      toolResponse app (worlds 0) { request with body := parts'.map .ok } tool := fun app tool => by
    simp only [toolResponse, hbody]
  have hdispatch : ∀ app, dispatchRequest app worlds { request with body := parts.map .ok } =
      dispatchRequest app worlds { request with body := parts'.map .ok } := fun app => by
    simp only [dispatchRequest, hmcp, htool]
    rfl
  simp only [routeRequest, hdispatch]
  rfl

end

/-! ## The front door -/

section

variable [ExternalParsers]

/-- What only reads leaves the store as it is. -/
lemma D1Store.step_of_isRead (db : Db) {op : StoreOp} (h : op.isRead = true)
    (outage : Option Outage) : (withOutages.step db (op, outage)).1 = db := by
  obtain hsame | hstep := withOutages_cases db op outage
  · exact hsame
  rw [hstep]
  cases op with
  | listWatches tenantId =>
    exact (rfl : (D1Store.listWatches db tenantId).1 = db)
  | history request =>
    exact (rfl : (D1Store.history db request).1 = db)
  | listDeliveries request =>
    exact (rfl : (D1Store.listDeliveries db request).1 = db)
  | _ => cases h

variable [AppToolLibrary] [JsonReader] [McpLibrary] {κ : Type} [DecidableEq κ]

end

end Comsat
