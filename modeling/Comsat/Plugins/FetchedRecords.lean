import Comsat.Plugins.GitHubObjects
import Comsat.Plugins.HackerNewsItems
import Comsat.Plugins.StackExchangePosts
import Comsat.Plugins.Web

set_option relaxedAutoImplicit false
set_option autoImplicit false

/-!
# Fetching records keeps their identity

A fetched record should keep the identity of the record that asked for it. Records of pages,
questions, items and search results do. Comments, reviews and answers do not: fetching one returns
the record of the page that shows it.

## Main definitions

* `Web.Describes` — a record describes the page at a URL.
* `FetchesKeepIdentity` — fetching the records of the sources keeps their identity under
  conditions.

## Main results

* `Web.keepsIdentity` — fetching a record of the web source keeps its identity.
* `fetches_keep_identity_iff` — when fetching a record keeps its identity.
* `fetched_answer_loses_identity` — fetching an answer returns a question.
-/

namespace Comsat

/-! ## Pages of the web -/

namespace Web

variable [UpstreamLibrary] [UrlLibrary]

/-- A record describes the page at a URL: the URL of the record is that of the page, and so is its
identifier. -/
def Describes (record : Record) (url : UrlLibrary.Url) : Prop :=
  UrlLibrary.parse record.url = .ok url ∧ canonicalUrl url = record.url ∧
    record.source = sourceId ∧ record.id.value = "web:" ++ record.url

/-- A record that the source has put together for a URL describes the page. -/
lemma describes_of_record {url : UrlLibrary.Url} {value : String}
    {kind title text author createdAt updatedAt metadata : Json} {r : Record}
    (hparse : UrlLibrary.parse value = .ok url)
    (h : record (.obj [("id", .str ("web:" ++ canonicalUrl url)), ("source", .str "web"),
      ("kind", kind), ("url", .str (canonicalUrl url)), ("title", title), ("text", text),
      ("author", author), ("created_at", createdAt), ("updated_at", updatedAt),
      ("metadata", metadata)]) = .ok r) :
    Describes r (UrlLibrary.withoutFragment url) := by
  rw [record] at h
  split at h
  · rename_i found hfound
    obtain rfl := Except.ok.inj h
    obtain ⟨hid, hsource, hurl, -⟩ := Record.fromValue_fields hfound
    refine ⟨?_, ?_, SourceId.ext_value hsource, ?_⟩
    · rw [hurl]
      exact UrlLibrary.parse_asStr value url hparse
    · rw [hurl, canonicalUrl, UrlLibrary.withoutFragment_idem]
      rfl
    · rw [hid, hurl]
  · cases h

omit [UpstreamLibrary] in
/-- A URL that is read. -/
lemma parseUrl_ok {value : String} {url : UrlLibrary.Url} :
    parseUrl value = .ok url ↔ UrlLibrary.parse value = .ok url := by
  rw [parseUrl]
  cases UrlLibrary.parse value <;> simp

omit [UpstreamLibrary] [UrlLibrary] in
/-- A target of the source goes on to be read. -/
lemma ok_of_ensureSource {α : Type} {source : SourceId} {next : Except SourceError α} {a : α}
    (h : (ensureSource source).bind (fun _ => next) = .ok a) : next = .ok a := by
  cases hsource : ensureSource source with
  | error e =>
    rw [hsource] at h
    cases h
  | ok _ =>
    rw [hsource] at h
    exact h

omit [UpstreamLibrary] in
/-- The URL of a target is read from a text. -/
lemma parse_of_targetUrl {target : Target} {url : UrlLibrary.Url} (h : targetUrl target = .ok url) :
    ∃ value, UrlLibrary.parse value = .ok url := by
  cases target with
  | record r => exact ⟨r.url, parseUrl_ok.mp (ok_of_ensureSource h)⟩
  | url source address => exact ⟨address, parseUrl_ok.mp (ok_of_ensureSource h)⟩
  | native source id =>
    have hnext := ok_of_ensureSource h
    refine ⟨id, ?_⟩
    split at hnext
    · rename_i found hfound
      rw [hfound, Except.ok.inj hnext]
    · cases hnext

omit [UpstreamLibrary] in
/-- The URL of a record that describes a page is that of the page. -/
lemma targetUrl_of_describes {r : Record} {url : UrlLibrary.Url} (h : Describes r url) :
    targetUrl (.record r) = .ok url := by
  obtain ⟨hparse, -, hsource, -⟩ := h
  have hurl := parseUrl_ok.mpr hparse
  simp [targetUrl, ensureSource, hsource, hurl, bind, Except.bind]

/-- The record of a search result describes a page. -/
lemma describes_of_result {result : BraveResult} {r : Record} (h : normalizeResult result = .ok r) :
    ∃ url, Describes r url := by
  rw [normalizeResult] at h
  cases hparse : parseUrl result.url with
  | error e => simp [hparse, bind, Except.bind] at h
  | ok url =>
    rw [hparse] at h
    exact ⟨_, describes_of_record (parseUrl_ok.mp hparse) h⟩

end Web

namespace WebSource

open Web

variable [UpstreamLibrary] [UrlLibrary] {source : WebSource}
  {service : HttpRequest → Except SourceError HttpResponse}
  {cooling : OperationKind → Option ℕ} {requests : List HttpRequest} {records : List Record}
  {r : Record}

/-- The records that a search returns describe pages. -/
lemma describes_of_search {query : Query}
    (h : (source.searchRecords query).run service cooling = (requests, .ok records)) :
    ∀ r ∈ records, ∃ url, Describes r url := by
  intro r hr
  rw [searchRecords] at h
  split at h
  · cases h
  split at h
  · cases h
  · obtain ⟨response, -, hrecords⟩ := Program.run_andThen_done_ok.mp h
    split at hrecords
    · cases hrecords
    · obtain ⟨result, -, hnormalize⟩ := exists_mem_of_mapM hrecords hr
      exact describes_of_result hnormalize

omit [UrlLibrary] in
/-- A request that succeeds is the only one. -/
lemma requests_of_exchange_ok {request : HttpRequest} {name : String} {response : HttpResponse}
    (h : (exchange request name).run service cooling = (requests, .ok response)) :
    requests = [request] := by
  rw [exchange] at h
  split at h
  · cases h
  · rw [Program.run] at h
    cases hservice : service request <;> rw [hservice] at h <;> exact (Prod.mk.inj h).1.symm

/-- A fetch that succeeds asks for the page of the target, and returns the record of the page. -/
lemma exists_of_fetchRecord_ok {target : Target}
    (h : (fetchRecord target).run service cooling = (requests, .ok r)) :
    ∃ url body, targetUrl target = .ok url ∧ requests = [publicGet url] ∧
      pageRecord url body = .ok r := by
  rw [fetchRecord] at h
  cases htarget : targetUrl target with
  | error e =>
    rw [htarget] at h
    cases h
  | ok url =>
    rw [htarget] at h
    simp only [bind, Except.bind, pure, Except.pure] at h
    split at h
    · cases h
    · rename_i found hfound
      split at hfound
      · cases hfound
      obtain rfl := Except.ok.inj hfound
      obtain ⟨response, hexchange, hrecord⟩ := Program.run_andThen_done_ok.mp h
      exact ⟨url, response.body, rfl, requests_of_exchange_ok hexchange, hrecord⟩

/-- The calls of the source. -/
def upstream (source : WebSource) : UpstreamSource where
  search query := (source.searchRecords query).together
  fetch := fetchRecord
  follow := followRecords

/-- **Records describe pages.** Every record that the source returns describes a page.

**Proof sketch.** The URL of a record is that of a search result or of a page, without its
fragment, and it is read back. -/
theorem describes_of_emits (h : source.upstream.Emits service r) : ∃ url, Describes r url := by
  obtain ⟨cooling, ⟨query, h⟩ | ⟨target, h⟩ | ⟨target, h⟩⟩ := h
  · obtain ⟨records, hrun, hmem⟩ := Program.mem_run_together h
    exact describes_of_search (Prod.ext rfl hrun) r hmem
  · obtain ⟨url, body, htarget, -, hrecord⟩ := exists_of_fetchRecord_ok (Prod.ext rfl h)
    obtain ⟨value, hparse⟩ := parse_of_targetUrl htarget
    exact ⟨_, describes_of_record hparse hrecord⟩
  · simp [upstream, followRecords, Program.run] at h

/-- **Fetches keep the identity of pages of the web.** Fetching the record of a page asks for the
page and returns a record with the same identity, or fails.

**Proof sketch.** The URL of the record is that of the page, and the identifier is made of it. -/
theorem keepsIdentity {asks : HttpRequest → UrlLibrary.Url → Prop}
    (hasks : ∀ url, asks (publicGet url) url) {url : UrlLibrary.Url} (h : Describes r url) :
    source.upstream.KeepsIdentity service (asks · url) r := by
  intro cooling requests fetched hrun
  obtain ⟨asked, body, htarget, rfl, hrecord⟩ := exists_of_fetchRecord_ok hrun
  rw [targetUrl_of_describes h] at htarget
  obtain rfl := Except.ok.inj htarget
  obtain ⟨hparse, hurl, hsource, hid⟩ := h
  obtain ⟨-, hcanonical, hfetched, hfetchedId⟩ := describes_of_record hparse hrecord
  refine ⟨⟨_, rfl, hasks url⟩, hfetched.trans hsource.symm, RecordId.ext_value ?_⟩
  rw [hfetchedId, hid, ← hcanonical, ← hurl, canonicalUrl, UrlLibrary.withoutFragment_idem]
  rfl

end WebSource

/-! ## All sources -/

section

variable [UpstreamLibrary] [UrlLibrary]

/-- Fetching the records of the sources keeps their identity exactly under conditions on the objects
that the records describe: for GitHub and for Stack Exchange the conditions given, for Hacker News
and the web always. -/
def FetchesKeepIdentity
    (gitHub : GitHubSource → (HttpRequest → Except SourceError HttpResponse) → GitHub.Object → Prop)
    (stackExchange : StackExchangeSource → (HttpRequest → Except SourceError HttpResponse) →
      StackExchange.Post → Prop) : Prop :=
  (∀ (objects : GitHub.Objects) (source : GitHubSource) (asks : HttpRequest → GitHub.Object → Prop),
    (∀ page, page.page = page → asks (source.pageRequest page) page) →
      source.upstream.KeepsIdentityWhen (objects.Answers source) objects.Describes asks
        (gitHub source)) ∧
  (∀ (posts : StackExchange.Posts) (source : StackExchangeSource)
    (asks : HttpRequest → StackExchange.Post → Prop),
    (∀ id, asks (StackExchangeSource.getRequest (source.questionUrl id)) (.question id)) →
      source.upstream.KeepsIdentityWhen (posts.Answers source) (posts.Describes source.site) asks
        (stackExchange source)) ∧
  (∀ (items : HackerNews.Items) (asks : HttpRequest → ℕ → Prop),
    (∀ id, asks (HackerNews.getRequest (HackerNews.itemUrl id)) id) →
      HackerNews.upstream.KeepsIdentityWhen items.Answers items.Describes asks
        fun _ _ => True) ∧
  ∀ (source : WebSource) (asks : HttpRequest → UrlLibrary.Url → Prop),
    (∀ url, asks (Web.publicGet url) url) →
      source.upstream.KeepsIdentityWhen (fun _ => True) Web.Describes asks fun _ _ => True

/-- **Fetches keep identity.** Fetching a record that a source returned fails, or asks for the
object that the record describes and returns a record with the same source and identifier, exactly
when the record is not a comment, a review or an answer, or the page that shows it is not
delivered.

**Proof sketch.** The records of each source describe objects, and the source reads a record back to
the page of its object. -/
theorem fetches_keep_identity_iff :
    FetchesKeepIdentity
      (fun source service object => object.page = object ∨ ¬GitHub.Delivers source service object)
      (fun source service post =>
        post.page = post ∨ ¬StackExchange.Delivers source service post.questionId) := by
  refine ⟨fun objects source asks hasks before after record hbefore hafter hemits => ?_,
    fun posts source asks hasks before after record hbefore hafter hemits => ?_,
    fun items asks hasks before after record hbefore hafter hemits => ?_,
    fun source asks hasks before after record _ _ hemits => ?_⟩
  · obtain ⟨object, hdescribes⟩ := GitHub.Objects.describes_of_emits hbefore hemits
    exact ⟨object, hdescribes, GitHub.Objects.keepsIdentity_iff hafter hasks hdescribes⟩
  · obtain ⟨post, hdescribes⟩ := StackExchange.Posts.describes_of_emits hbefore hemits
    exact ⟨post, hdescribes, StackExchange.Posts.keepsIdentity_iff hafter hasks hdescribes⟩
  · obtain ⟨id, hdescribes⟩ := HackerNews.Items.describes_of_emits hbefore hemits
    exact ⟨id, hdescribes, iff_true_intro (HackerNews.Items.keepsIdentity hafter hasks hdescribes)⟩
  · obtain ⟨url, hdescribes⟩ := WebSource.describes_of_emits hemits
    exact ⟨url, hdescribes, iff_true_intro (WebSource.keepsIdentity hasks hdescribes)⟩

end

/-! ## An issue keeps its identity -/

namespace GitHub

/-- A response with an issue. -/
def sampleIssue : Json :=
  .obj [("id", .num "7"), ("html_url", .str "https://github.com/acme/tool/issues/1"),
    ("title", .str "It stops"), ("number", .num "1")]

/-- A service with one issue. -/
def sampleService (_request : HttpRequest) : Except SourceError HttpResponse :=
  .ok ⟨200, none, [], some sampleIssue⟩

/-- The issue of the service. -/
def sampleObject : Object := .issue ⟨"acme", "tool"⟩ 1

/-- The objects of the service. -/
def sampleObjects : Objects where
  Present object := object = sampleObject
  pullRequest _ _ := false
  databaseId _ := 7
  nodeId _ := none
  plain object h := by
    rw [h]
    exact ⟨isPlainSegment_of_all (by decide), isPlainSegment_of_all (by decide)⟩
  numbered object h number hnumber := by
    rw [h] at hnumber
    obtain rfl := Option.some.inj hnumber
    decide
  page_present object h := by rw [h]; rfl
  recordId_injective object other h hother _ := h.trans hother.symm

/-- The source without a token. -/
def sampleSource : GitHubSource := ⟨none⟩

/-- The service answers requests with the objects that they ask for. -/
lemma answers_sampleService :
    letI : UpstreamLibrary := .plain
    sampleObjects.Answers sampleSource sampleService := by
  let _ : UpstreamLibrary := .plain
  have hread : ∀ {α : Type} {request : HttpRequest} {read : HttpResponse → Except SourceError α}
      {found : α}, Replies sampleService request read found →
        read ⟨200, none, [], some sampleIssue⟩ = .ok found := by
    rintro α request read found ⟨response, hservice, hread⟩
    obtain rfl := Except.ok.inj hservice
    exact hread
  -- Nothing but an issue can be read in what the service answers.
  constructor
  case issue =>
    intro asked askedNumber found hreplies
    have hissue := hread hreplies
    obtain rfl := Except.ok.inj hissue
    refine ⟨⟨"acme", "tool"⟩, 1, ⟨rfl, rfl, rfl, by decide⟩, fun hpresent => ?_⟩
    cases hpresent
    exact ⟨rfl, rfl⟩
  case repository => exact fun asked found hreplies => absurd (hread hreplies) (by rintro ⟨⟩)
  case discussion =>
    exact fun asked askedNumber found hreplies => absurd (hread hreplies) (by rintro ⟨⟩)
  case repositoryDiscussions =>
    exact fun asked found hreplies => absurd (hread hreplies) (by rintro ⟨⟩)
  all_goals exact fun _ _ found hreplies => absurd (hread hreplies) (by rintro ⟨⟩)

/-- Fetching the issue returns its record. -/
lemma emits_sampleIssue :
    letI : UpstreamLibrary := .plain
    letI : UrlLibrary := .gitHub
    ∃ record, sampleSource.upstream.Emits sampleService record := by
  let _ : UpstreamLibrary := .plain
  let _ : UrlLibrary := .gitHub
  let target : Target := .native sourceId "acme/tool#1"
  have hok : ((sampleSource.upstream.fetch target).run sampleService
      fun _ => none).2.toOption.isSome = true := by decide
  cases hresult : ((sampleSource.upstream.fetch target).run sampleService fun _ => none).2 with
  | error e => simp [hresult, Except.toOption] at hok
  | ok record => exact ⟨record, fun _ => none, .inr (.inl ⟨target, hresult⟩)⟩

end GitHub

/-- An issue that the source returns keeps its identity. -/
theorem fetched_issue_keeps_identity :
    letI : UpstreamLibrary := .plain
    letI : UrlLibrary := .gitHub
    ∃ record, GitHub.sampleSource.upstream.Emits GitHub.sampleService record ∧
      GitHub.sampleSource.upstream.KeepsIdentity GitHub.sampleService
        (fun request => request = GitHub.sampleSource.pageRequest GitHub.sampleObject) record := by
  let _ : UpstreamLibrary := .plain
  let _ : UrlLibrary := .gitHub
  obtain ⟨record, hemits⟩ := GitHub.emits_sampleIssue
  obtain ⟨object, hdescribes, hkeeps⟩ := fetches_keep_identity_iff.1 GitHub.sampleObjects
    GitHub.sampleSource (fun request object => request = GitHub.sampleSource.pageRequest object)
    (fun _ _ => rfl) _ _ record GitHub.answers_sampleService GitHub.answers_sampleService hemits
  obtain rfl : object = GitHub.sampleObject := hdescribes.1
  exact ⟨record, hemits, hkeeps.mpr (.inl rfl)⟩

/-! ## Answers lose their identity -/

namespace StackExchange

/-- A response with a question. -/
def sampleQuestion : Json :=
  .obj [("items", .arr [.obj [("question_id", .num "481"),
    ("link", .str "https://stackoverflow.com/questions/481/sorting"), ("title", .str "Sorting")]])]

/-- A response with an answer to the question. -/
def sampleAnswers : Json :=
  .obj [("items", .arr [.obj [("answer_id", .num "482"), ("question_id", .num "481"),
    ("body", .str "Use a library.")]])]

/-- A service with one question and one answer to it. -/
def sampleService (request : HttpRequest) : Except SourceError HttpResponse :=
  .ok ⟨200, none, [],
    some (if Text.contains "/answers?" request.uri then sampleAnswers else sampleQuestion)⟩

/-- The question of the service. -/
def samplePosts : Posts where
  Present id := id = 481
  numbered id h := by rw [h]; decide

/-- The source for one site. -/
def sampleSource : StackExchangeSource := ⟨"stackoverflow", none⟩

/-- The questions in what the service answers. -/
lemma ids_of_readQuestion {request : HttpRequest} {found : StackResponse Question}
    (h : letI : UpstreamLibrary := .plain
      Replies sampleService request (readResponse Question.fromValue) found) :
    found.items.map Question.id = [481] := by
  let _ : UpstreamLibrary := .plain
  obtain ⟨response, hservice, hread⟩ := h
  obtain rfl := Except.ok.inj hservice
  split at hread
  · cases hread
  · have hids : ((readResponse Question.fromValue ⟨200, none, [], some sampleQuestion⟩).toOption.map
        fun parsed => parsed.items.map Question.id) = some [481] := by decide
    rw [hread] at hids
    exact Option.some.inj hids

/-- The questions that the answers in what the service answers are about. -/
lemma questionIds_of_readAnswers {request : HttpRequest} {found : StackResponse Answer}
    (h : letI : UpstreamLibrary := .plain
      Replies sampleService request (readResponse Answer.fromValue) found) :
    found.items.map Answer.questionId = [some 481] := by
  let _ : UpstreamLibrary := .plain
  obtain ⟨response, hservice, hread⟩ := h
  obtain rfl := Except.ok.inj hservice
  split at hread
  · have hids : ((readResponse Answer.fromValue ⟨200, none, [], some sampleAnswers⟩).toOption.map
        fun parsed => parsed.items.map Answer.questionId) = some [some 481] := by decide
    rw [hread] at hids
    exact Option.some.inj hids
  · cases hread

/-- The service answers requests with the posts that they ask for. -/
lemma answers_sampleService :
    letI : UpstreamLibrary := .plain
    samplePosts.Answers sampleSource sampleService := by
  let _ : UpstreamLibrary := .plain
  have hquestion : ∀ request found,
      Replies sampleService request (readResponse Question.fromValue) found →
      ∀ question ∈ found.items, question.id = 481 := by
    intro request found hreplies question hmem
    have hid := List.mem_map_of_mem (f := Question.id) hmem
    rw [ids_of_readQuestion hreplies] at hid
    exact List.mem_singleton.mp hid
  refine ⟨fun query dates found hreplies => hquestion _ found hreplies,
    fun asked found hreplies question hmem => ?_, fun asked found hreplies answer hmem => ?_⟩
  · have hid := hquestion _ found hreplies question hmem
    exact ⟨hid, fun hasked => hid.trans hasked.symm⟩
  · have hid := List.mem_map_of_mem (f := Answer.questionId) hmem
    rw [questionIds_of_readAnswers hreplies, List.mem_singleton] at hid
    change answer.questionId.getD asked = 481
    rw [hid]
    rfl

/-- Following the question returns the record of the answer. -/
lemma emits_sampleAnswer :
    letI : UpstreamLibrary := .plain
    letI : UrlLibrary := .gitHub
    ∃ record, sampleSource.upstream.Emits sampleService record ∧
      record.id.value = "stack-exchange:stackoverflow:answer:482" := by
  let _ : UpstreamLibrary := .plain
  let _ : UrlLibrary := .gitHub
  let target : Target := .native sourceId "481"
  have hids : ((sampleSource.upstream.follow target).run sampleService fun _ => none).2.map
      (fun result => result.toOption.map fun r => r.id.value) =
        [some "stack-exchange:stackoverflow:answer:482"] := by decide +kernel
  obtain ⟨result, hresults, hid⟩ := List.map_eq_singleton_iff.mp hids
  cases result with
  | error e => cases hid
  | ok r =>
    refine ⟨r, ⟨fun _ => none, .inr (.inr ⟨target, ?_⟩)⟩, Option.some.inj hid⟩
    rw [hresults]
    exact List.mem_singleton_self _

/-- The service delivers the question. -/
lemma delivers_sampleQuestion :
    letI : UpstreamLibrary := .plain
    Delivers sampleSource sampleService 481 := by
  let _ : UpstreamLibrary := .plain
  refine ⟨rfl, ?_⟩
  have hid : (questionRecord "stackoverflow" ⟨200, none, [], some sampleQuestion⟩).toOption.isSome =
      true := by decide
  have hanswer : sampleService (StackExchangeSource.getRequest (sampleSource.questionUrl 481)) =
      .ok ⟨200, none, [], some sampleQuestion⟩ := by
    have huri : Text.contains "/answers?" (sampleSource.questionUrl 481) = false := by
      decide +kernel
    rw [sampleService]
    simp [StackExchangeSource.getRequest, huri]
  cases hrecord : questionRecord "stackoverflow" ⟨200, none, [], some sampleQuestion⟩ with
  | error e => simp [hrecord, Except.toOption] at hid
  | ok record => exact ⟨record, _, hanswer, hrecord⟩

end StackExchange

/-- Following a question returns an answer to it, but fetching the answer returns the question. -/
theorem fetched_answer_loses_identity :
    letI : UpstreamLibrary := .plain
    letI : UrlLibrary := .gitHub
    ¬FetchesKeepIdentity (fun _ _ _ => True) (fun _ _ _ => True) := by
  let _ : UpstreamLibrary := .plain
  let _ : UrlLibrary := .gitHub
  rintro ⟨-, hclaim, -, -⟩
  have hservice := StackExchange.answers_sampleService
  obtain ⟨record, hemits, hid⟩ := StackExchange.emits_sampleAnswer
  let asks : HttpRequest → StackExchange.Post → Prop := fun _ _ => True
  have hasks : ∀ id, asks (StackExchangeSource.getRequest
      (StackExchange.sampleSource.questionUrl id)) (.question id) := fun _ => trivial
  obtain ⟨post, hdescribes, hkeeps⟩ := hclaim StackExchange.samplePosts
    StackExchange.sampleSource asks hasks _ _ record hservice hservice hemits
  have hquestion : post.questionId = 481 := hdescribes.1
  rcases (StackExchange.Posts.keepsIdentity_iff hservice hasks hdescribes).mp
    (hkeeps.mpr trivial) with hpage | hdelivers
  · have hvalue := hdescribes.2.2.1
    rw [hid, ← hpage, StackExchange.Post.page, hquestion] at hvalue
    exact absurd hvalue (by decide)
  · rw [hquestion] at hdelivers
    exact hdelivers StackExchange.delivers_sampleQuestion

end Comsat
