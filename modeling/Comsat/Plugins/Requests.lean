import Comsat.Plugins.FetchedRecords

set_option relaxedAutoImplicit false
set_option autoImplicit false

/-!
# The requests of the program's own sources

Whatever a source is asked and however services answer, its requests go to the services that it is
made for. Only the web source also asks for pages, whose addresses come from targets: such a request
consists of the address and of fixed texts.

## Main definitions

* `Program.Sends` — every request of a call has a property, whatever the answers are.
* `FirstPartySource`, `FirstPartySource.apiHosts` — the sources, and the hosts of their services.
* `FirstPartySource.Sendable` — a request to one of these hosts, or for a page.
* `secretHeaders` — the headers that carry secrets.

## Main results

* `requests_confined` — the sources send no other requests, and their secrets go to their own
  services only.
-/

/-! ## Beginnings of texts -/

namespace Text

/-- A text begins with another. -/
def StartsWith (start value : String) : Prop := ∃ rest, value = start ++ rest

/-- What begins a text begins every longer one. -/
lemma StartsWith.append {start value : String} (h : StartsWith start value) (more : String) :
    StartsWith start (value ++ more) := by
  obtain ⟨rest, rfl⟩ := h
  exact ⟨rest ++ more, String.append_assoc⟩

/-- The same text may stand before both. -/
lemma StartsWith.before {start value : String} (h : StartsWith start value) (first : String) :
    StartsWith (first ++ start) (first ++ value) := by
  obtain ⟨rest, rfl⟩ := h
  exact ⟨rest, String.append_assoc.symm⟩

end Text

namespace Comsat

/-! ## What a call sends -/

/-- Every request of a call has a property, whatever the answers are. -/
def Program.Sends {α : Type} (p : HttpRequest → Prop) : Program α → Prop
  | .done _ => True
  | .check _ next => ∀ wait, (next wait).Sends p
  | .note _ _ next => next.Sends p
  | .send request next => p request ∧ ∀ answer, (next answer).Sends p

namespace Program

variable {α β : Type} {p q : HttpRequest → Prop}

/-- A weaker property of the requests. -/
lemma Sends.mono {call : Program α} (h : call.Sends p) (hpq : ∀ request, p request → q request) :
    call.Sends q := by
  induction call with
  | done result => trivial
  | check operation next ih => exact fun wait => ih wait (h wait)
  | note operation seconds next ih => exact ih h
  | send request next ih => exact ⟨hpq request h.1, fun answer => ih answer (h.2 answer)⟩

/-- The requests of one call after another. -/
lemma Sends.bind {call : Program α} {f : α → Program β} (h : call.Sends p)
    (hf : ∀ a, (f a).Sends p) : (call.bind f).Sends p := by
  induction call with
  | done result => exact hf result
  | check operation next ih => exact fun wait => ih wait (h wait)
  | note operation seconds next ih => exact ih h
  | send request next ih => exact ⟨h.1, fun answer => ih answer (h.2 answer)⟩

/-- The requests of one call after another that has not failed. -/
lemma Sends.andThen {call : Program (Except SourceError α)} {f : α → Program (Except SourceError β)}
    (h : call.Sends p) (hf : ∀ a, (f a).Sends p) : (call.andThen f).Sends p := by
  refine h.bind fun result => ?_
  cases result with
  | ok a => exact hf a
  | error error => trivial

/-- The requests of a call whose records are returned together. -/
lemma Sends.together {call : Program (Except SourceError (List Record))} (h : call.Sends p) :
    call.together.Sends p := by
  refine h.bind fun result => ?_
  cases result <;> trivial

end Program

/-- A request goes to a host, over HTTPS. -/
def HttpRequest.GoesTo (request : HttpRequest) (host : String) : Prop :=
  Text.StartsWith ("https://" ++ host ++ "/") request.uri

/-- A request with given headers, by a method that the sources use. -/
def HttpRequest.Bears (request : HttpRequest) (headers : List (String × String)) : Prop :=
  request.headers = headers ∧ (request.method = "GET" ∨ request.method = "POST")

section

variable [UpstreamLibrary] {p : HttpRequest → Prop} {α : Type}

/-! ## GitHub -/

/-- The request of an exchange. -/
lemma GitHub.exchange_sends {operation : OperationKind} {request : HttpRequest} (h : p request) :
    (exchange operation request).Sends p := by
  rw [exchange]
  cases UpstreamLibrary.requestError request with
  | some message => trivial
  | none =>
    refine ⟨h, fun answer => ?_⟩
    cases answer with
    | error error => trivial
    | ok response =>
      dsimp only
      cases checkedBody response with
      | ok body => trivial
      | error error =>
        dsimp only
        rw [observeError]
        split <;> trivial

namespace GitHubSource

variable {source : GitHubSource}

omit [UpstreamLibrary] in
/-- A call begins when the operation does not cool down. -/
lemma whenReady_sends {operation : OperationKind} {next : Program (Except SourceError α)}
    (h : next.Sends p) : (whenReady operation next).Sends p := by
  intro wait
  cases wait with
  | none => exact h
  | some remaining => trivial

variable (source) in
/-- A request of the source. -/
def Requests (request : HttpRequest) : Prop :=
  request.GoesTo "api.github.com" ∧ request.Bears source.headers

/-- One request to the REST interface. -/
lemma rest_sends {read : Json → Option α} {operation : OperationKind} {url : String}
    (h : Text.StartsWith ("https://" ++ "api.github.com" ++ "/") url) :
    (source.rest read operation url).Sends source.Requests :=
  (GitHub.exchange_sends ⟨h, rfl, .inl rfl⟩).andThen fun _ => trivial

/-- One request to the GraphQL interface. -/
lemma graphql_sends {operation : OperationKind} {request : Json} :
    (source.graphql operation request).Sends source.Requests := by
  have hurl : Text.StartsWith ("https://" ++ "api.github.com" ++ "/") GitHub.graphqlUrl :=
    ⟨"graphql", by decide⟩
  rw [graphql]
  split
  · trivial
  · exact (GitHub.exchange_sends ⟨hurl, rfl, .inr rfl⟩).andThen fun _ => trivial

omit [UpstreamLibrary] in
/-- The address of a repository. -/
lemma startsWith_repositoryUrl (repository : GitHub.RepositoryRef) :
    Text.StartsWith ("https://" ++ "api.github.com" ++ "/") (repositoryUrl repository) :=
  ((Text.StartsWith.append ⟨"repos/", by decide⟩ _).append _).append _

omit [UpstreamLibrary] in
/-- The address of a search. -/
lemma startsWith_searchUrl (resource text : String) (limit : ℕ) :
    Text.StartsWith ("https://" ++ "api.github.com" ++ "/") (searchUrl resource text limit) :=
  ((((((Text.StartsWith.append ⟨"search/", by decide⟩ _).append _).append _).append _).append
    _).append _)

/-- A search. -/
lemma searchRecords_sends (query : Query) : (source.searchRecords query).Sends source.Requests := by
  rw [searchRecords]
  cases GitHub.ensureLimit query.limit with
  | error error => trivial
  | ok _ =>
    refine whenReady_sends ?_
    dsimp only
    rcases GitHub.githubSearch query with ⟨_ | _ | _, text⟩
    · exact (rest_sends (startsWith_searchUrl ..)).andThen fun _ => trivial
    · exact (rest_sends (startsWith_searchUrl ..)).andThen fun _ => trivial
    · exact graphql_sends.andThen fun _ => trivial

/-- The discussion of an issue. -/
lemma issueDiscussion_sends (repository : GitHub.RepositoryRef) (number : ℕ)
    (pullRequest : Option Bool) :
    (source.issueDiscussion repository number pullRequest).Sends source.Requests := by
  have hissue := ((startsWith_repositoryUrl repository).append "/issues/").append (toString number)
  have hpull := ((startsWith_repositoryUrl repository).append "/pulls/").append (toString number)
  refine Program.Sends.andThen ?_ fun isPullRequest => ?_
  · cases pullRequest with
    | some known => trivial
    | none => exact (rest_sends hissue).andThen fun _ => trivial
  · refine Program.Sends.andThen ?_ fun comments => ?_
    · exact (rest_sends ((hissue.append _).append _)).andThen fun _ => trivial
    · split
      · refine Program.Sends.andThen ?_ fun reviews => Program.Sends.andThen ?_ fun _ => trivial
        · exact (rest_sends ((hpull.append _).append _)).andThen fun _ => trivial
        · exact (rest_sends ((hpull.append _).append _)).andThen fun _ => trivial
      · trivial

variable [UrlLibrary]

/-- A fetch. -/
lemma fetchRecord_sends (target : Target) : (source.fetchRecord target).Sends source.Requests := by
  refine whenReady_sends ?_
  cases GitHubTarget.fromTarget target with
  | error error => trivial
  | ok addressed =>
    cases addressed with
    | repository repository =>
      exact (rest_sends (startsWith_repositoryUrl repository)).andThen fun _ => trivial
    | issue repository number pullRequest =>
      exact (rest_sends (((startsWith_repositoryUrl repository).append _).append _)).andThen
        fun _ => trivial
    | discussion repository number =>
      exact graphql_sends.andThen fun _ => trivial

/-- A follow. -/
lemma followRecords_sends (target : Target) : (source.followRecords target).Sends source.Requests := by
  refine whenReady_sends ?_
  cases GitHubTarget.fromTarget target with
  | error error => trivial
  | ok addressed =>
    cases addressed with
    | repository repository => exact graphql_sends.andThen fun _ => trivial
    | issue repository number pullRequest =>
      exact issueDiscussion_sends repository number pullRequest
    | discussion repository number =>
      exact graphql_sends.andThen fun _ => trivial

end GitHubSource

/-! ## Hacker News -/

namespace HackerNews

/-- A request of the source: a search, or one for an item. -/
def Requests (request : HttpRequest) : Prop :=
  (request.GoesTo "hn.algolia.com" ∨ request.GoesTo "hacker-news.firebaseio.com") ∧
    request.Bears [("user-agent", "comsat")]

/-- The request of an exchange. -/
lemma exchange_sends {url : String} (h : p ⟨"GET", url, [("user-agent", "comsat")], none⟩) :
    (exchange url).Sends p := by
  rw [exchange]
  cases UpstreamLibrary.requestError ⟨"GET", url, [("user-agent", "comsat")], none⟩ with
  | some message => trivial
  | none =>
    refine ⟨h, fun answer => ?_⟩
    cases answer <;> trivial

/-- A search. -/
lemma searchRecords_sends (query : Query) : (searchRecords query).Sends Requests := by
  rw [searchRecords]
  cases ensureLimit query.limit with
  | error error => trivial
  | ok _ =>
    dsimp only
    cases algoliaFilters query with
    | error error => trivial
    | ok filters =>
      have hstart : Text.StartsWith ("https://" ++ "hn.algolia.com" ++ "/")
          "https://hn.algolia.com/api/v1/search?query=" := ⟨"api/v1/search?query=", by decide⟩
      exact (exchange_sends ⟨.inl (((((((hstart.append _).append _).append _).append _).append
        _).append _).append _), rfl, .inl rfl⟩).andThen fun _ => trivial

/-- The request for an item. -/
lemma fetchItem_sends (id : ℕ) : (fetchItem id).Sends Requests := by
  have hstart : Text.StartsWith ("https://" ++ "hacker-news.firebaseio.com" ++ "/")
      "https://hacker-news.firebaseio.com/v0/item/" := ⟨"v0/item/", by decide⟩
  exact (exchange_sends ⟨.inr ((hstart.append _).append _), rfl, .inl rfl⟩).andThen fun _ => trivial

/-- The requests for replies. -/
lemma followItems_sends (ids : List ℕ) : (followItems ids).Sends Requests := by
  induction ids with
  | nil => trivial
  | cons id ids ih => exact (fetchItem_sends id).bind fun _ => ih.bind fun _ => trivial

variable [UrlLibrary]

/-- A fetch. -/
lemma fetchItemRecord_sends (target : Target) : (fetchItemRecord target).Sends Requests := by
  rw [fetchItemRecord]
  cases targetId target with
  | error error => trivial
  | ok id => exact (fetchItem_sends id).andThen fun _ => trivial

/-- A follow. -/
lemma followRecords_sends (target : Target) : (followRecords target).Sends Requests := by
  rw [followRecords]
  cases targetId target with
  | error error => trivial
  | ok id =>
    refine (fetchItem_sends id).bind fun item => ?_
    cases item with
    | error error => trivial
    | ok item => exact followItems_sends _

end HackerNews

/-! ## Stack Exchange -/

namespace StackExchange

omit [UpstreamLibrary] in
/-- A wait is noted. -/
lemma observeBackoff_sends {operation : OperationKind} {next : Program α} (h : next.Sends p)
    (seconds : Option ℕ) : (observeBackoff operation seconds next).Sends p := by
  cases seconds <;> exact h

omit [UpstreamLibrary] in
/-- A wait is noted at the end of a call. -/
lemma observeBackoff_done_sends {operation : OperationKind} (result : α) (seconds : Option ℕ) :
    (observeBackoff operation seconds (.done result)).Sends p := by
  cases seconds <;> exact trivial

/-- Reading an answer. -/
lemma parseResponse_sends {β : Type} {read : Json → Option α} {operation : OperationKind}
    {body : Option Json} {next : Except SourceError (StackResponse α) → Program β}
    (h : ∀ parsed, (next parsed).Sends p) : (parseResponse read operation body next).Sends p := by
  rw [parseResponse]
  cases parseStackResponse read body with
  | ok response => exact h _
  | error error => exact observeBackoff_sends (h _) _

/-- Reading an answer with a status. -/
lemma parseHttpResponse_sends {read : Json → Option α} {operation : OperationKind}
    (response : HttpResponse) : (parseHttpResponse read operation response).Sends p := by
  rw [parseHttpResponse]
  split
  · exact parseResponse_sends fun _ => trivial
  · refine parseResponse_sends fun parsed => ?_
    cases parsed with
    | ok response => exact observeBackoff_done_sends _ _
    | error error =>
      dsimp only
      split
      · trivial
      · exact observeBackoff_done_sends _ _

/-- The request of an exchange. -/
lemma exchange_sends {read : Json → Option α} {operation : OperationKind} {url : String}
    (h : p ⟨"GET", url, [("accept", "application/json"), ("user-agent", "comsat")], none⟩) :
    (exchange read operation url).Sends p := by
  rw [exchange]
  cases UpstreamLibrary.requestError
      ⟨"GET", url, [("accept", "application/json"), ("user-agent", "comsat")], none⟩ with
  | some message => trivial
  | none =>
    refine ⟨h, fun answer => ?_⟩
    cases answer with
    | error error => trivial
    | ok response =>
      exact (parseHttpResponse_sends response).andThen fun parsed =>
        observeBackoff_done_sends _ _

end StackExchange

namespace StackExchangeSource

variable {source : StackExchangeSource}

omit [UpstreamLibrary] in
/-- A call begins when the operation does not cool down. -/
lemma whenReady_sends {operation : OperationKind} {next : Program (Except SourceError α)}
    (h : next.Sends p) : (whenReady operation next).Sends p := by
  intro wait
  cases wait with
  | none => exact h
  | some remaining => trivial

/-- A request of the source. -/
def Requests (request : HttpRequest) : Prop :=
  request.GoesTo "api.stackexchange.com" ∧
    request.Bears [("accept", "application/json"), ("user-agent", "comsat")]

/-- The request of an exchange. -/
lemma exchange_sends {read : Json → Option α} {operation : OperationKind} {path : String}
    (h : Text.StartsWith "/" path) :
    (StackExchange.exchange read operation (source.apiUrl path)).Sends Requests := by
  have hhost : "https://" ++ "api.stackexchange.com" = "https://api.stackexchange.com" := by decide
  refine StackExchange.exchange_sends ⟨?_, rfl, .inl rfl⟩
  rw [HttpRequest.GoesTo, hhost]
  exact (h.before _).append _

/-- A search. -/
lemma searchRecords_sends (query : Query) : (source.searchRecords query).Sends Requests := by
  rw [searchRecords]
  cases StackExchange.ensureLimit query.limit with
  | error error => trivial
  | ok _ =>
    refine whenReady_sends ?_
    cases StackExchange.dateQuery query with
    | error error => trivial
    | ok dates =>
      have hstart : Text.StartsWith "/" "/2.3/search/advanced?order=desc&sort=relevance&q=" :=
        ⟨"2.3/search/advanced?order=desc&sort=relevance&q=", by decide⟩
      exact (exchange_sends ((((((hstart.append _).append _).append _).append _).append
        _).append _)).andThen fun _ => trivial

omit [UpstreamLibrary] in
/-- An address under that of the questions. -/
lemma startsWith_questions : Text.StartsWith "/" "/2.3/questions/" := ⟨"2.3/questions/", by decide⟩

variable [UrlLibrary]

/-- A fetch. -/
lemma fetchRecord_sends (target : Target) : (source.fetchRecord target).Sends Requests := by
  refine whenReady_sends ?_
  cases StackExchange.questionId source.site target with
  | error error => trivial
  | ok id =>
    exact (exchange_sends ((((startsWith_questions.append _).append _).append _).append _)).andThen
      fun _ => trivial

/-- A follow. -/
lemma followRecords_sends (target : Target) : (source.followRecords target).Sends Requests := by
  refine whenReady_sends ?_
  cases StackExchange.questionId source.site target with
  | error error => trivial
  | ok id =>
    exact (exchange_sends (((((startsWith_questions.append _).append _).append _).append
      _).append _)).andThen fun _ => trivial

end StackExchangeSource

/-! ## Pages -/

namespace Web

/-- The request of an exchange. -/
lemma exchange_sends {request : HttpRequest} {name : String} (h : p request) :
    (exchange request name).Sends p := by
  rw [exchange]
  cases UpstreamLibrary.requestError request with
  | some message => trivial
  | none =>
    refine ⟨h, fun answer => ?_⟩
    cases answer <;> trivial

variable [UrlLibrary]

/-- A request for a page whose address was read and is allowed. -/
def PageRequest (request : HttpRequest) : Prop :=
  ∃ value url, UrlLibrary.parse value = .ok url ∧ validateFetchUrl url = .ok () ∧
    request = publicGet url

/-- A request of the source: a search, or one for a page. -/
def Requests (source : WebSource) (request : HttpRequest) : Prop :=
  (request.GoesTo "api.search.brave.com" ∧ request.Bears [("accept", "application/json"),
      ("user-agent", "comsat"), ("x-subscription-token", source.braveApiKey)]) ∨
    PageRequest request

omit [UpstreamLibrary] in
/-- The URL of a target was read. -/
lemma exists_parse_of_targetUrl {target : Target} {url : UrlLibrary.Url}
    (h : targetUrl target = .ok url) : ∃ value, UrlLibrary.parse value = .ok url := by
  cases target with
  | record record => exact ⟨_, parseUrl_ok.mp (ok_of_ensureSource h)⟩
  | url source address => exact ⟨_, parseUrl_ok.mp (ok_of_ensureSource h)⟩
  | native source id =>
    have hread := ok_of_ensureSource h
    cases hparse : UrlLibrary.parse id with
    | error message =>
      rw [hparse] at hread
      cases hread
    | ok found =>
      rw [hparse] at hread
      obtain rfl := Except.ok.inj hread
      exact ⟨id, hparse⟩

end Web

namespace WebSource

variable [UrlLibrary] {source : WebSource}

/-- A search. -/
lemma searchRecords_sends (query : Query) :
    (source.searchRecords query).Sends (Web.Requests source) := by
  rw [searchRecords]
  split
  · trivial
  · split
    · trivial
    · have hstart : Text.StartsWith ("https://" ++ "api.search.brave.com" ++ "/")
          "https://api.search.brave.com/res/v1/web/search?q=" :=
        ⟨"res/v1/web/search?q=", by decide⟩
      exact (Web.exchange_sends (.inl ⟨((hstart.append _).append _).append _, rfl,
        .inl rfl⟩)).andThen fun _ => trivial

/-- A fetch. -/
lemma fetchRecord_sends (target : Target) : (fetchRecord target).Sends (Web.Requests source) := by
  rw [fetchRecord]
  cases htarget : Web.targetUrl target with
  | error error => trivial
  | ok url =>
    cases hvalid : Web.validateFetchUrl url with
    | error error =>
      simp only [bind, Except.bind, hvalid]
      trivial
    | ok _ =>
      obtain ⟨value, hparse⟩ := Web.exists_parse_of_targetUrl htarget
      simp only [bind, Except.bind, hvalid]
      exact (Web.exchange_sends (.inr ⟨value, url, hparse, hvalid, rfl⟩)).andThen fun _ => trivial

end WebSource

/-! ## All sources -/

/-- The headers that carry the secrets of sources. -/
def secretHeaders : List String := ["authorization", "x-subscription-token"]

/-- A source of the program, as it is configured. -/
inductive FirstPartySource where
  | gitHub (source : GitHubSource)
  | hackerNews
  | stackExchange (source : StackExchangeSource)
  | web (source : WebSource)

namespace FirstPartySource

/-- The hosts of the services that the source is made for. -/
def apiHosts : FirstPartySource → List String
  | gitHub _ => ["api.github.com"]
  | hackerNews => ["hn.algolia.com", "hacker-news.firebaseio.com"]
  | stackExchange _ => ["api.stackexchange.com"]
  | web _ => ["api.search.brave.com"]

/-- The headers of the requests to them. -/
def apiHeaders : FirstPartySource → List (String × String)
  | gitHub source => source.headers
  | hackerNews => [("user-agent", "comsat")]
  | stackExchange _ => [("accept", "application/json"), ("user-agent", "comsat")]
  | web source => [("accept", "application/json"), ("user-agent", "comsat"),
      ("x-subscription-token", source.braveApiKey)]

variable [UrlLibrary]

/-- The calls of the source. -/
def upstream : FirstPartySource → UpstreamSource
  | gitHub source => source.upstream
  | hackerNews => HackerNews.upstream
  | stackExchange source => source.upstream
  | web source => source.upstream

/-- A request to a service of the source, or one of the web source for a page. -/
def Sendable (source : FirstPartySource) (request : HttpRequest) : Prop :=
  (∃ host ∈ source.apiHosts, request.GoesTo host ∧ request.Bears source.apiHeaders) ∨
    (∃ configured, source = web configured) ∧ Web.PageRequest request

omit [UpstreamLibrary] in
/-- What the web source sends. -/
private lemma sendable_web {configured : WebSource} {request : HttpRequest}
    (h : Web.Requests configured request) : (web configured).Sendable request :=
  h.elim (fun hservice => .inl ⟨_, List.mem_singleton_self _, hservice⟩) fun hpage =>
    .inr ⟨⟨configured, rfl⟩, hpage⟩

omit [UpstreamLibrary] in
/-- What the Hacker News source sends. -/
private lemma sendable_hackerNews {request : HttpRequest} (h : HackerNews.Requests request) :
    hackerNews.Sendable request := by
  obtain ⟨hhost | hhost, hbears⟩ := h
  · exact .inl ⟨_, List.mem_cons_self .., hhost, hbears⟩
  · exact .inl ⟨_, List.mem_cons_of_mem _ (List.mem_singleton_self _), hhost, hbears⟩

/-- What a search sends. -/
lemma search_sends (source : FirstPartySource) (query : Query) :
    (source.upstream.search query).Sends source.Sendable := by
  cases source with
  | gitHub configured =>
    exact (GitHubSource.searchRecords_sends query).together.mono fun _ h =>
      .inl ⟨_, List.mem_singleton_self _, h⟩
  | hackerNews =>
    exact (HackerNews.searchRecords_sends query).together.mono fun _ => sendable_hackerNews
  | stackExchange configured =>
    exact (StackExchangeSource.searchRecords_sends query).together.mono fun _ h =>
      .inl ⟨_, List.mem_singleton_self _, h⟩
  | web configured =>
    exact (WebSource.searchRecords_sends query).together.mono fun _ => sendable_web

/-- What a fetch sends. -/
lemma fetch_sends (source : FirstPartySource) (target : Target) :
    (source.upstream.fetch target).Sends source.Sendable := by
  cases source with
  | gitHub configured =>
    exact (GitHubSource.fetchRecord_sends target).mono fun _ h =>
      .inl ⟨_, List.mem_singleton_self _, h⟩
  | hackerNews => exact (HackerNews.fetchItemRecord_sends target).mono fun _ => sendable_hackerNews
  | stackExchange configured =>
    exact (StackExchangeSource.fetchRecord_sends target).mono fun _ h =>
      .inl ⟨_, List.mem_singleton_self _, h⟩
  | web configured => exact (WebSource.fetchRecord_sends target).mono fun _ => sendable_web

/-- What a follow sends. -/
lemma follow_sends (source : FirstPartySource) (target : Target) :
    (source.upstream.follow target).Sends source.Sendable := by
  cases source with
  | gitHub configured =>
    exact (GitHubSource.followRecords_sends target).together.mono fun _ h =>
      .inl ⟨_, List.mem_singleton_self _, h⟩
  | hackerNews => exact (HackerNews.followRecords_sends target).mono fun _ => sendable_hackerNews
  | stackExchange configured =>
    exact (StackExchangeSource.followRecords_sends target).together.mono fun _ h =>
      .inl ⟨_, List.mem_singleton_self _, h⟩
  | web configured => trivial

omit [UpstreamLibrary] in
/-- A request that bears a secret goes to a service of the source. -/
lemma goesTo_of_secret {source : FirstPartySource} {request : HttpRequest}
    (h : source.Sendable request) {header : String × String} (hheader : header ∈ request.headers)
    (hsecret : header.1 ∈ secretHeaders) : ∃ host ∈ source.apiHosts, request.GoesTo host := by
  obtain ⟨host, hhost, hgoes, -⟩ | ⟨-, value, url, -, -, rfl⟩ := h
  · exact ⟨host, hhost, hgoes⟩
  · -- a request for a page bears two headers, and neither is a secret
    simp only [Web.publicGet, List.mem_cons, List.not_mem_nil, or_false] at hheader
    rcases hheader with rfl | rfl
    · exact absurd hsecret (by decide)
    · exact absurd hsecret (by decide)

end FirstPartySource

/-- **Requests stay with their services.** Whatever a source of the program is asked and however
services answer, it sends only requests to its own services, with the headers that it is configured
with, and the web source also requests for pages whose addresses are allowed. The secrets of a source
go to its own services only.

**Proof sketch.** Every address that a call makes begins with the host of a service, and what follows
is appended to it; a page is asked for by its address and two fixed headers. -/
theorem requests_confined [UrlLibrary] (source : FirstPartySource) :
    (∀ query, (source.upstream.search query).Sends source.Sendable) ∧
      (∀ target, (source.upstream.fetch target).Sends source.Sendable) ∧
      (∀ target, (source.upstream.follow target).Sends source.Sendable) ∧
      ∀ request, source.Sendable request → ∀ header ∈ request.headers, header.1 ∈ secretHeaders →
        ∃ host ∈ source.apiHosts, request.GoesTo host :=
  ⟨source.search_sends, source.fetch_sends, source.follow_sends, fun _ hsendable _ hheader hsecret =>
    FirstPartySource.goesTo_of_secret hsendable hheader hsecret⟩

end

end Comsat
