import Comsat.Source.Http
import Comsat.Source.Url

set_option relaxedAutoImplicit false
set_option autoImplicit false

/-!
# The Stack Exchange source

Questions of one site, and the answers to them.

## Main definitions

* `StackExchange.Question`, `StackExchange.Answer` — the payloads of the service.
* `StackExchange.normalizeQuestion`, `StackExchange.normalizeAnswer` — the records made of them.
* `StackExchange.questionId` — the question that a target addresses.
* `StackExchange.parseHttpResponse` — reading an answer, and the waits that are noted.
* `StackExchangeSource.searchRecords`, `StackExchangeSource.fetchRecord`,
  `StackExchangeSource.followRecords` — the calls.
-/

namespace Comsat

namespace StackExchange

/-! ## Errors -/

/-- The identifier of the source. -/
def sourceId : SourceId := ⟨"stack-exchange", SourceId.isValid_stackExchange⟩

/-- An error of the source. -/
def error (errorClass : ErrorClass) (message : String) : SourceError :=
  ⟨sourceId, errorClass, message, none⟩

/-- An answer or a request that cannot be read. -/
def protocol (message : String) : SourceError := error .protocol message

/-- A target that cannot be asked for. -/
def invalidQuery (message : String) : SourceError := error .invalidQuery message

/-! ## Payloads -/

/-- The owner of a post. -/
structure Owner where
  displayName : Option String
  userId : Option ℕ

/-- Reads an owner. -/
def Owner.fromValue (value : Json) : Option Owner := do
  let [displayName, userId] ← value.fields ["display_name", "user_id"] | none
  return ⟨← Json.optional Json.asStr? displayName, ← Json.optional Json.asU64? userId⟩

/-- A question. -/
structure Question where
  id : ℕ
  link : String
  title : String
  body : Option String
  owner : Option Owner
  creationDate : Option ℕ
  lastActivityDate : Option ℕ
  score : Option ℤ
  answerCount : Option ℤ
  isAnswered : Option Bool
  tags : Option (List String)

/-- Reads a question. -/
def Question.fromValue (value : Json) : Option Question := do
  let [id, link, title, body, owner, creationDate, lastActivityDate, score, answerCount, isAnswered,
    tags] ← value.fields ["question_id", "link", "title", "body", "owner", "creation_date",
      "last_activity_date", "score", "answer_count", "is_answered", "tags"] | none
  return { id := ← Json.required Json.asU64? id
           link := ← Json.required Json.asStr? link
           title := ← Json.required Json.asStr? title
           body := ← Json.optional Json.asStr? body
           owner := ← Json.optional Owner.fromValue owner
           creationDate := ← Json.optional Json.asU64? creationDate
           lastActivityDate := ← Json.optional Json.asU64? lastActivityDate
           score := ← Json.optional Json.asI64? score
           answerCount := ← Json.optional Json.asI64? answerCount
           isAnswered := ← Json.optional Json.asBool? isAnswered
           tags := ← Json.optional (Json.items Json.asStr?) tags }

/-- An answer to a question. -/
structure Answer where
  id : ℕ
  questionId : Option ℕ
  link : Option String
  body : Option String
  owner : Option Owner
  creationDate : Option ℕ
  lastActivityDate : Option ℕ
  score : Option ℤ
  isAccepted : Option Bool

/-- Reads an answer. -/
def Answer.fromValue (value : Json) : Option Answer := do
  let [id, questionId, link, body, owner, creationDate, lastActivityDate, score, isAccepted] ←
    value.fields ["answer_id", "question_id", "link", "body", "owner", "creation_date",
      "last_activity_date", "score", "is_accepted"] | none
  return { id := ← Json.required Json.asU64? id
           questionId := ← Json.optional Json.asU64? questionId
           link := ← Json.optional Json.asStr? link
           body := ← Json.optional Json.asStr? body
           owner := ← Json.optional Owner.fromValue owner
           creationDate := ← Json.optional Json.asU64? creationDate
           lastActivityDate := ← Json.optional Json.asU64? lastActivityDate
           score := ← Json.optional Json.asI64? score
           isAccepted := ← Json.optional Json.asBool? isAccepted }

/-- What every answer of the service is wrapped in. -/
structure StackResponse (α : Type) where
  items : List α
  /-- For how many seconds the service asks to wait. -/
  backoff : Option ℕ
  errorId : Option ℕ
  errorName : Option String
  errorMessage : Option String

/-- Reads a wrapped answer; without items there are none. -/
def StackResponse.fromValue {α : Type} (read : Json → Option α) (value : Json) :
    Option (StackResponse α) := do
  let [items, backoff, errorId, errorName, errorMessage] ←
    value.fields ["items", "backoff", "error_id", "error_name", "error_message"] | none
  return { items := ← (match items with
             | none => some []
             | some items => Json.items read items)
           backoff := ← Json.optional Json.asU64? backoff
           errorId := ← Json.optional Json.asU64? errorId
           errorName := ← Json.optional Json.asStr? errorName
           errorMessage := ← Json.optional Json.asStr? errorMessage }

/-! ## Records -/

section Records

variable [UpstreamLibrary]

/-- Reads a record that the source has put together. -/
def record (value : Json) : Except SourceError Record :=
  match Record.fromValue value with
  | some record => .ok record
  | none => .error (protocol (UpstreamLibrary.decodeError (some value)))

/-- An optional integer, or `null` when there is none. -/
def optInt : Option ℤ → Json := .ofOption Json.int

/-- The record of a question. -/
def normalizeQuestion (question : Question) (site : String) : Except SourceError Record :=
  record (.obj [("id", .str ("stack-exchange:" ++ site ++ ":question:" ++ toString question.id)),
    ("source", .str "stack-exchange"), ("kind", .str "question"), ("url", .str question.link),
    ("title", .str question.title), ("text", .optStr question.body),
    ("author", .optStr (question.owner.bind Owner.displayName)),
    ("created_at", .optStr (question.creationDate.bind UpstreamLibrary.ofUnix)),
    ("updated_at", .optStr (question.lastActivityDate.bind UpstreamLibrary.ofUnix)),
    ("metadata", .obj [("site", .str site), ("question_id", .int question.id),
      ("score", optInt question.score), ("answer_count", optInt question.answerCount),
      ("is_answered", .ofOption Json.bool question.isAnswered),
      ("tags", .ofOption (fun tags => .arr (tags.map Json.str)) question.tags),
      ("owner_user_id", .optNat (question.owner.bind Owner.userId))])])

/-- The record of an answer. -/
def normalizeAnswer (answer : Answer) (site : String) (fallbackQuestionId : ℕ) :
    Except SourceError Record :=
  let questionId := answer.questionId.getD fallbackQuestionId
  let url := answer.link.getD ("https://stackoverflow.com/a/" ++ toString answer.id)
  record (.obj [("id", .str ("stack-exchange:" ++ site ++ ":answer:" ++ toString answer.id)),
    ("source", .str "stack-exchange"), ("kind", .str "answer"), ("url", .str url),
    ("title", .null), ("text", .optStr answer.body),
    ("author", .optStr (answer.owner.bind Owner.displayName)),
    ("created_at", .optStr (answer.creationDate.bind UpstreamLibrary.ofUnix)),
    ("updated_at", .optStr (answer.lastActivityDate.bind UpstreamLibrary.ofUnix)),
    ("metadata", .obj [("site", .str site), ("answer_id", .int answer.id),
      ("question_id", .int questionId), ("score", optInt answer.score),
      ("is_accepted", .ofOption Json.bool answer.isAccepted),
      ("owner_user_id", .optNat (answer.owner.bind Owner.userId))])])

end Records

/-! ## Targets -/

/-- Whether a host is that of the site. -/
def hostMatchesSite (site host : String) : Bool :=
  if site = "stackoverflow" then host = "stackoverflow.com"
  else if site = "serverfault" then host = "serverfault.com"
  else if site = "superuser" then host = "superuser.com"
  else host = site ++ ".stackexchange.com"

/-- The target must be one of the source. -/
def ensureSource (source : SourceId) : Except SourceError Unit :=
  if source = sourceId then .ok ()
  else .error (invalidQuery "target source does not match stack-exchange")

section Targets

variable [UrlLibrary]

/-- The question at a URL of the site. -/
def questionIdFromUrl (site : String) (url : UrlLibrary.Url) : Option ℕ := do
  let host ← UrlLibrary.domain url
  if hostMatchesSite site host then
    let segments ← UrlLibrary.pathSegments url
    match segments.dropWhile fun segment => segment ≠ "questions" ∧ segment ≠ "q" with
    | _ :: number :: _ => parseU64 number
    | _ => none
  else none

/-- The question at an address. -/
def questionIdAt (site address : String) : Option ℕ :=
  match UrlLibrary.parse address with
  | .ok url => questionIdFromUrl site url
  | .error _ => none

/-- The question that a target addresses. -/
def questionId (site : String) : Target → Except SourceError ℕ
  | .record record => do
    ensureSource record.source
    match ((record.metadata.get? "question_id").bind Json.asU64?).or
        (questionIdAt site record.url) with
    | some id => .ok id
    | none => .error (invalidQuery "Stack Exchange record target does not contain a question id")
  | .url source address => do
    ensureSource source
    match questionIdAt site address with
    | some id => .ok id
    | none => .error (invalidQuery "Stack Exchange URL target must include a question id")
  | .native source id => do
    ensureSource source
    match parseU64 id with
    | some id => .ok id
    | none => .error (invalidQuery "Stack Exchange native id must be a numeric question id")

end Targets

/-! ## Answers -/

/-- How long the service asks to wait in a header. -/
def retryAfter (response : HttpResponse) : Option ℕ := response.retryAfter.bind parseU64

/-- The error of a status. -/
def httpError [UpstreamLibrary] (response : HttpResponse) : SourceError :=
  if response.status = 401 then error .authentication "Stack Exchange authentication failed"
  else if response.status = 403 then error .authorization "Stack Exchange access denied"
  else if response.status = 429 then
    { error .rateLimit "Stack Exchange request was rate limited" with
      retryAfterSeconds := retryAfter response }
  else if response.status = 404 then error .notFound "Stack Exchange target was not found"
  else error .upstream
    ("Stack Exchange returned HTTP " ++ UpstreamLibrary.statusText response.status)

/-- The class of a declared error. -/
def stackErrorClass (name : Option String) : ErrorClass :=
  let name := name.getD ""
  if name = "key_required" then .authentication
  else
    ([("throttle", ErrorClass.rateLimit), ("access_token", .authentication),
      ("auth", .authentication), ("access_denied", .authorization),
      ("bad_parameter", .invalidQuery), ("invalid", .invalidQuery), ("no_method", .invalidQuery)].find?
        fun entry => Text.contains entry.1 name).elim .upstream Prod.snd

/-- Reads a wrapped answer; a declared error comes first. -/
def parseStackResponse [UpstreamLibrary] {α : Type} (read : Json → Option α) (body : Option Json) :
    Except SourceError (StackResponse α) :=
  match body.bind (StackResponse.fromValue read) with
  | none => .error (protocol (UpstreamLibrary.decodeError body))
  | some response =>
    if response.errorId.isSome then
      .error { error (stackErrorClass response.errorName)
          (response.errorName.getD "stack_exchange_error" ++ ": " ++
            response.errorMessage.getD "unknown error") with
        retryAfterSeconds := response.backoff }
    else .ok response

/-- A wait that the service asks for is noted. -/
def observeBackoff {α : Type} (operation : OperationKind) (seconds : Option ℕ)
    (next : Program α) : Program α :=
  match seconds with
  | none => next
  | some seconds => .note operation seconds next

section

variable [UpstreamLibrary] {α : Type} (read : Json → Option α) (operation : OperationKind)

/-- Reads a wrapped answer, and notes the wait of a declared error. -/
def parseResponse (body : Option Json) {β : Type}
    (next : Except SourceError (StackResponse α) → Program β) : Program β :=
  match parseStackResponse read body with
  | .ok response => next (.ok response)
  | .error error => observeBackoff operation error.retryAfterSeconds (next (.error error))

/-- Reads an answer. Unless the status is one of success the answer is an error, the declared one
if there is one. -/
def parseHttpResponse (response : HttpResponse) :
    Program (Except SourceError (StackResponse α)) :=
  if response.isSuccess then parseResponse read operation response.json .done
  else
    parseResponse read operation response.json fun
      | .error error =>
        if error.errorClass ≠ .protocol then .done (.error error)
        else observeBackoff operation (httpError response).retryAfterSeconds
          (.done (.error (httpError response)))
      | .ok _ => observeBackoff operation (httpError response).retryAfterSeconds
          (.done (.error (httpError response)))

/-- One request, whose answer is read and whose wait is noted. -/
def exchange (url : String) : Program (Except SourceError (StackResponse α)) :=
  let request : HttpRequest :=
    ⟨"GET", url, [("accept", "application/json"), ("user-agent", "comsat")], none⟩
  match UpstreamLibrary.requestError request with
  | some message => .done (.error (protocol message))
  | none => .send request fun
    | .error error => .done (.error error)
    | .ok response =>
      (parseHttpResponse read operation response).andThen fun parsed =>
        observeBackoff operation parsed.backoff (.done (.ok parsed))

end

/-! ## Queries -/

/-- The most records a search returns. -/
def maxLimit : ℕ := 50

/-- A search returns no more records than the source allows. -/
def ensureLimit (limit : Option ℕ) : Except SourceError Unit :=
  if maxLimit < limit.getD 10 then
    .error (invalidQuery "Stack Exchange source supports at most 50 results per search")
  else .ok ()

/-- The seconds of a timestamp. -/
def rfc3339ToUnix [UpstreamLibrary] (value : String) : Except SourceError ℤ :=
  match UpstreamLibrary.toUnix value with
  | .ok seconds => .ok seconds
  | .error message => .error (protocol message)

/-- The bounds of a query in an address. -/
def dateQuery [UpstreamLibrary] (query : Query) : Except SourceError String := do
  let since ← match query.since with
    | none => pure ""
    | some since => do pure ("&fromdate=" ++ toString (← rfc3339ToUnix since))
  let «until» ← match query.until with
    | none => pure ""
    | some «until» => do pure ("&todate=" ++ toString (← rfc3339ToUnix «until»))
  return since ++ «until»

end StackExchange

/-! ## Calls -/

open StackExchange

/-- The source, for one site. -/
structure StackExchangeSource where
  site : String
  apiKey : Option String

namespace StackExchangeSource

variable [UpstreamLibrary] (source : StackExchangeSource)

/-- The address of a request. -/
def apiUrl (pathAndQuery : String) : String :=
  "https://api.stackexchange.com" ++ pathAndQuery ++
    (source.apiKey.map fun key => "&key=" ++ percentEncode key).getD ""

/-- A call does not begin while the operation cools down. -/
def whenReady {α : Type} (operation : OperationKind) (next : Program (Except SourceError α)) :
    Program (Except SourceError α) :=
  .check operation fun
    | none => next
    | some remaining => .done (.error ⟨sourceId, .rateLimit,
        "Stack Exchange " ++ operation.asStr ++ " is cooling down after API backoff", some remaining⟩)

/-- A search. -/
def searchRecords (query : Query) : Program (Except SourceError (List Record)) :=
  match ensureLimit query.limit with
  | .error error => .done (.error error)
  | .ok () =>
    whenReady .search
      (match dateQuery query with
      | .error error => .done (.error error)
      | .ok dates =>
        (exchange Question.fromValue .search (source.apiUrl
          ("/2.3/search/advanced?order=desc&sort=relevance&q=" ++ percentEncode query.text ++
            "&site=" ++ percentEncode source.site ++ "&pagesize=" ++
            toString (query.limit.getD 10) ++ dates))).andThen fun response =>
              .done (response.items.mapM fun question => normalizeQuestion question source.site))

/-- The address of a question. -/
def questionUrl (id : ℕ) : String :=
  source.apiUrl ("/2.3/questions/" ++ toString id ++ "?order=desc&sort=activity&site=" ++
    percentEncode source.site ++ "&filter=withbody")

/-- The address of the answers to a question. -/
def answersUrl (id : ℕ) : String :=
  source.apiUrl ("/2.3/questions/" ++ toString id ++ "/answers?order=desc&sort=activity&site=" ++
    percentEncode source.site ++ "&filter=withbody&pagesize=" ++ toString maxLimit)

variable [UrlLibrary]

/-- A fetch. -/
def fetchRecord (target : Target) : Program (Except SourceError Record) :=
  whenReady .fetch
    (match questionId source.site target with
    | .error error => .done (.error error)
    | .ok id =>
      (exchange Question.fromValue .fetch (source.questionUrl id)).andThen fun response =>
        .done (match response.items with
          | [] => .error (error .notFound "Stack Exchange question was not found")
          | question :: _ => normalizeQuestion question source.site))

/-- A follow. -/
def followRecords (target : Target) : Program (Except SourceError (List Record)) :=
  whenReady .follow
    (match questionId source.site target with
    | .error error => .done (.error error)
    | .ok id =>
      (exchange Answer.fromValue .follow (source.answersUrl id)).andThen fun response =>
        .done (response.items.mapM fun answer => normalizeAnswer answer source.site id))

end StackExchangeSource

end Comsat
