import Comsat.Plugins.Identity
import Comsat.Plugins.StackExchange

set_option relaxedAutoImplicit false
set_option autoImplicit false

/-!
# Fetching records of the Stack Exchange source

Which posts the records of the source describe, and when fetching a record returns the same post
again.

## Main definitions

* `StackExchange.Post` — questions and answers.
* `StackExchange.Posts.Answers` — a service answers requests with the posts that they ask for.
* `StackExchange.Posts.Describes` — a record describes a post.

## Main results

* `StackExchange.Posts.describes_of_emits` — every record that the source returns describes a post.
* `StackExchange.Posts.keepsIdentity_iff` — fetching a record keeps its identity, unless the record
  is an answer and its question is delivered.
-/

namespace Comsat

open StackExchange

namespace StackExchange

/-! ## Posts -/

/-- A post of the site. -/
inductive Post where
  | question (id : ℕ)
  | answer (asked id : ℕ)
deriving DecidableEq

namespace Post

/-- The number of the question. -/
def questionId : Post → ℕ
  | question id => id
  | answer asked _ => asked

/-- The question of a post. -/
def page (post : Post) : Post := question post.questionId

/-- The identifier of the record of a post. -/
def identifier (site : String) : Post → String
  | question id => "stack-exchange:" ++ site ++ ":question:" ++ toString id
  | answer _ id => "stack-exchange:" ++ site ++ ":answer:" ++ toString id

/-- A question and an answer have different identifiers. -/
lemma identifier_page_ne {site : String} {post : Post} (h : post.page ≠ post) :
    post.page.identifier site ≠ post.identifier site := by
  cases post with
  | question id => exact absurd rfl h
  | answer asked id =>
    intro hsame
    have hspelled : ∀ kind number : String,
        ("stack-exchange:" ++ site ++ kind ++ number).toList =
          ("stack-exchange:" ++ site).toList ++ (kind.toList ++ number.toList) :=
      fun kind number => by rw [String.toList_append, String.toList_append, List.append_assoc]
    have hkind := List.append_cancel_left
      ((hspelled _ _).symm.trans ((congrArg String.toList hsame).trans (hspelled _ _)))
    exact absurd (List.cons.inj (List.cons.inj hkind).2).1 (by decide)

end Post

/-- The questions of the site. -/
structure Posts where
  Present : ℕ → Prop
  /-- Numbers have at most 64 bits. -/
  numbered : ∀ id, Present id → id < 2 ^ 64

/-- A record describes a post: its identifier names the post, and its metadata the question. -/
def Posts.Describes (posts : Posts) (site : String) (record : Record) (post : Post) : Prop :=
  posts.Present post.questionId ∧ record.source = sourceId ∧
    record.id.value = post.identifier site ∧
    record.metadata.get? "question_id" = some (.int post.questionId)

/-! ## Requests and answers -/

variable [UpstreamLibrary]

/-- Reads an answer whose status is one of success. -/
def readResponse {α : Type} (read : Json → Option α) (response : HttpResponse) :
    Except SourceError (StackResponse α) :=
  if response.isSuccess then parseStackResponse read response.json else .error (httpError response)

/-- The record that is made of the answer to the request for a question. -/
def questionRecord (site : String) (response : HttpResponse) : Except SourceError Record :=
  (readResponse Question.fromValue response).bind fun parsed =>
    match parsed.items with
    | [] => .error (error .notFound "Stack Exchange question was not found")
    | question :: _ => normalizeQuestion question site

end StackExchange

namespace StackExchangeSource

variable (source : StackExchangeSource)

/-- A request to the service. -/
def getRequest (url : String) : HttpRequest :=
  ⟨"GET", url, [("accept", "application/json"), ("user-agent", "comsat")], none⟩

/-- The request of a search within bounds. -/
def searchRequest (query : Query) (dates : String) : HttpRequest :=
  getRequest (source.apiUrl
    ("/2.3/search/advanced?order=desc&sort=relevance&q=" ++ percentEncode query.text ++
      "&site=" ++ percentEncode source.site ++ "&pagesize=" ++
      toString (query.limit.getD 10) ++ dates))

end StackExchangeSource

namespace StackExchange

variable [UpstreamLibrary]

/-- The service delivers a question. -/
def Delivers (source : StackExchangeSource)
    (service : HttpRequest → Except SourceError HttpResponse) (id : ℕ) : Prop :=
  UpstreamLibrary.requestError (StackExchangeSource.getRequest (source.questionUrl id)) = none ∧
    ∃ record, Replies service (StackExchangeSource.getRequest (source.questionUrl id))
      (questionRecord source.site) record

/-- A service answers requests with the posts that they ask for: the questions that it returns, and
the questions of the answers, are present, and a request for a question that is present returns this
question. -/
structure Posts.Answers (posts : Posts) (source : StackExchangeSource)
    (service : HttpRequest → Except SourceError HttpResponse) : Prop where
  searched : ∀ query dates found,
    Replies service (source.searchRequest query dates) (readResponse Question.fromValue) found →
    ∀ question ∈ found.items, posts.Present question.id
  question : ∀ asked found,
    Replies service (StackExchangeSource.getRequest (source.questionUrl asked))
      (readResponse Question.fromValue) found →
    ∀ question ∈ found.items, posts.Present question.id ∧
      (posts.Present asked → question.id = asked)
  answers : ∀ asked found,
    Replies service (StackExchangeSource.getRequest (source.answersUrl asked))
      (readResponse Answer.fromValue) found →
    ∀ answer ∈ found.items, posts.Present (answer.questionId.getD asked)

/-! ## Calls that succeed -/

section

variable {service : HttpRequest → Except SourceError HttpResponse}
  {cooling : OperationKind → Option ℕ} {requests : List HttpRequest} {α : Type}

omit [UpstreamLibrary] in
/-- Noting a wait sends nothing. -/
@[simp] lemma run_observeBackoff (operation : OperationKind) (seconds : Option ℕ)
    (next : Program α) :
    (observeBackoff operation seconds next).run service cooling = next.run service cooling := by
  cases seconds <;> rfl

/-- Reading an answer sends nothing, and succeeds only when the status is one of success. -/
lemma run_parseHttpResponse_ok {read : Json → Option α} {operation : OperationKind}
    {response : HttpResponse} {parsed : StackResponse α} :
    (parseHttpResponse read operation response).run service cooling = (requests, .ok parsed) ↔
      requests = [] ∧ readResponse read response = .ok parsed := by
  rw [parseHttpResponse, readResponse]
  split
  · rw [parseResponse]
    cases parseStackResponse read response.json <;> simp [Program.run, eq_comm]
  · rw [parseResponse]
    cases parseStackResponse read response.json with
    | ok value => simp [Program.run]
    | error e =>
      simp only [run_observeBackoff]
      split <;> simp [Program.run]

/-- Reading an answer and noting its wait sends nothing. -/
lemma run_parse_then_observe_ok {read : Json → Option α} {operation : OperationKind}
    {response : HttpResponse} {parsed : StackResponse α} :
    ((parseHttpResponse read operation response).andThen fun found =>
        observeBackoff operation found.backoff (.done (.ok found))).run service cooling =
        (requests, .ok parsed) ↔
      requests = [] ∧ readResponse read response = .ok parsed := by
  rw [Program.run_andThen_congr fun found => run_observeBackoff _ _ _,
    Program.run_andThen_done_ok]
  simp only [run_parseHttpResponse_ok, Except.ok.injEq, exists_eq_right]

/-- A request succeeds when the library accepts it and the answer can be read. -/
lemma run_exchange_ok {read : Json → Option α} {operation : OperationKind} {url : String}
    {parsed : StackResponse α} :
    (exchange read operation url).run service cooling = (requests, .ok parsed) ↔
      UpstreamLibrary.requestError (StackExchangeSource.getRequest url) = none ∧
        requests = [StackExchangeSource.getRequest url] ∧
        Replies service (StackExchangeSource.getRequest url) (readResponse read) parsed := by
  rw [exchange, ← StackExchangeSource.getRequest]
  cases hrequest : UpstreamLibrary.requestError (StackExchangeSource.getRequest url) with
  | some message => simp [Program.run]
  | none =>
    simp only [Program.run, Replies, true_and]
    cases hservice : service (StackExchangeSource.getRequest url) with
    | error e => simp [Program.run]
    | ok response =>
      have hparsed : ∀ rest, ((parseHttpResponse read operation response).andThen fun found =>
          observeBackoff operation found.backoff (.done (.ok found))).run service cooling =
          (rest, .ok parsed) ↔ rest = [] ∧ readResponse read response = .ok parsed :=
        fun rest => run_parse_then_observe_ok
      simp only [Prod.ext_iff] at hparsed
      simp only [Prod.mk.injEq, Except.ok.injEq, exists_eq_left']
      constructor
      · rintro ⟨rfl, hread⟩
        obtain ⟨hrest, hread⟩ := (hparsed _).mp ⟨rfl, hread⟩
        exact ⟨by rw [hrest], hread⟩
      · rintro ⟨rfl, hread⟩
        obtain ⟨hrest, hread⟩ := (hparsed []).mpr ⟨rfl, hread⟩
        exact ⟨by rw [hrest], hread⟩

end

end StackExchange

namespace StackExchangeSource

variable {source : StackExchangeSource}
  {service : HttpRequest → Except SourceError HttpResponse}
  {cooling : OperationKind → Option ℕ} {requests : List HttpRequest} {α β : Type}

/-- A call that is not held back. -/
lemma run_whenReady_ok {operation : OperationKind} {next : Program (Except SourceError α)} {a : α} :
    (whenReady operation next).run service cooling = (requests, .ok a) ↔
      cooling operation = none ∧ next.run service cooling = (requests, .ok a) := by
  rw [whenReady, Program.run]
  cases cooling operation with
  | none => simp
  | some remaining => simp [Program.run]

variable [UpstreamLibrary]

/-- A request that succeeds, and whose answer is read further. -/
lemma run_exchange_then_ok {read : Json → Option α} {f : StackResponse α → Except SourceError β}
    {operation : OperationKind} {url : String} {b : β} :
    ((exchange read operation url).andThen fun parsed => .done (f parsed)).run service cooling =
        (requests, .ok b) ↔
      UpstreamLibrary.requestError (getRequest url) = none ∧ requests = [getRequest url] ∧
        Replies service (getRequest url) (fun response => (readResponse read response).bind f) b := by
  simp only [Program.run_andThen_done_ok, run_exchange_ok, Replies.bind]
  constructor
  · rintro ⟨value, ⟨hrequest, rfl, hreplies⟩, hrecord⟩
    exact ⟨hrequest, rfl, value, hreplies, hrecord⟩
  · rintro ⟨hrequest, rfl, value, hreplies, hrecord⟩
    exact ⟨value, ⟨hrequest, rfl, hreplies⟩, hrecord⟩

variable [UrlLibrary]

/-- **Fetches of records.** Fetching a record that describes a post asks for the question, and
returns the record that is made of the answer.

**Proof sketch.** The metadata of the record holds the number of the question. -/
theorem run_fetchRecord_ok {posts : Posts} {record : Record} {post : Post}
    (h : posts.Describes source.site record post) {fetched : Record} :
    (source.fetchRecord (.record record)).run service cooling = (requests, .ok fetched) ↔
      cooling .fetch = none ∧
        UpstreamLibrary.requestError (getRequest (source.questionUrl post.questionId)) = none ∧
        requests = [getRequest (source.questionUrl post.questionId)] ∧
        Replies service (getRequest (source.questionUrl post.questionId))
          (questionRecord source.site) fetched := by
  obtain ⟨hpresent, hsource, -, hmetadata⟩ := h
  have hid : questionId source.site (.record record) = .ok post.questionId := by
    have hread := Json.asU64?_int (posts.numbered _ hpresent)
    simp [questionId, ensureSource, hsource, hmetadata, hread, bind, Except.bind]
  rw [fetchRecord, run_whenReady_ok, hid]
  simp only
  rw [run_exchange_then_ok]
  rfl

end StackExchangeSource

/-! ## Records and their posts -/

namespace StackExchange

variable [UpstreamLibrary]

/-- A record that the source has put together. -/
lemma record_ok {id url : String} {kind title text author createdAt updatedAt metadata : Json}
    {r : Record}
    (h : record (.obj [("id", .str id), ("source", .str "stack-exchange"), ("kind", kind),
      ("url", .str url), ("title", title), ("text", text), ("author", author),
      ("created_at", createdAt), ("updated_at", updatedAt), ("metadata", metadata)]) = .ok r) :
    r.source = sourceId ∧ r.id.value = id ∧ r.metadata = metadata := by
  rw [record] at h
  split at h
  · rename_i found hfound
    obtain rfl := Except.ok.inj h
    obtain ⟨hid, hsource, -, hmetadata⟩ := Record.fromValue_fields hfound
    exact ⟨SourceId.ext_value hsource, hid, hmetadata⟩
  · cases h

namespace Posts

variable {posts : Posts} {site : String} {r : Record}

/-- The record of a question describes it. -/
lemma describes_of_question {question : Question} (hpresent : posts.Present question.id)
    (h : normalizeQuestion question site = .ok r) :
    posts.Describes site r (.question question.id) := by
  obtain ⟨hsource, hid, hmetadata⟩ := record_ok h
  exact ⟨hpresent, hsource, hid, by rw [hmetadata]; rfl⟩

/-- The record of an answer describes it. -/
lemma describes_of_answer {answer : Answer} {asked : ℕ}
    (hpresent : posts.Present (answer.questionId.getD asked))
    (h : normalizeAnswer answer site asked = .ok r) :
    posts.Describes site r (.answer (answer.questionId.getD asked) answer.id) := by
  obtain ⟨hsource, hid, hmetadata⟩ := record_ok h
  exact ⟨hpresent, hsource, hid, by rw [hmetadata]; rfl⟩

variable {source : StackExchangeSource} {service : HttpRequest → Except SourceError HttpResponse}
  {cooling : OperationKind → Option ℕ} {requests : List HttpRequest} {records : List Record}

/-- The records that a search returns describe questions. -/
lemma describes_of_search (hservice : posts.Answers source service) {query : Query}
    (h : (source.searchRecords query).run service cooling = (requests, .ok records)) :
    ∀ r ∈ records, ∃ post, posts.Describes source.site r post := by
  intro r hr
  rw [StackExchangeSource.searchRecords] at h
  split at h
  · cases h
  obtain ⟨-, h⟩ := StackExchangeSource.run_whenReady_ok.mp h
  split at h
  · cases h
  · obtain ⟨-, -, hreplies⟩ := StackExchangeSource.run_exchange_then_ok.mp h
    obtain ⟨found, hfound, hrecords⟩ := Replies.bind.mp hreplies
    obtain ⟨question, hquestion, hnormalize⟩ := exists_mem_of_mapM hrecords hr
    exact ⟨_, describes_of_question (hservice.searched _ _ found hfound question hquestion)
      hnormalize⟩

/-- The record that is made of a question describes one; a question that is present is described
itself. -/
lemma describes_of_questionRecord (hservice : posts.Answers source service) {asked : ℕ}
    (h : Replies service (StackExchangeSource.getRequest (source.questionUrl asked))
      (questionRecord source.site) r) :
    ∃ id, posts.Describes source.site r (.question id) ∧ (posts.Present asked → id = asked) := by
  obtain ⟨found, hfound, hr⟩ := Replies.bind.mp h
  split at hr
  · cases hr
  · rename_i question rest hitems
    obtain ⟨hpresent, hsame⟩ := hservice.question asked found hfound question
      (hitems ▸ List.mem_cons_self ..)
    exact ⟨_, describes_of_question hpresent hr, hsame⟩

variable [UrlLibrary]

/-- The record that a fetch returns describes a question. -/
lemma describes_of_fetch (hservice : posts.Answers source service) {target : Target}
    (h : (source.fetchRecord target).run service cooling = (requests, .ok r)) :
    ∃ post, posts.Describes source.site r post := by
  obtain ⟨-, h⟩ := StackExchangeSource.run_whenReady_ok.mp h
  split at h
  · cases h
  · obtain ⟨-, -, hreplies⟩ := StackExchangeSource.run_exchange_then_ok.mp h
    obtain ⟨id, hdescribes, -⟩ := describes_of_questionRecord hservice hreplies
    exact ⟨_, hdescribes⟩

/-- The records that a follow returns describe answers. -/
lemma describes_of_follow (hservice : posts.Answers source service) {target : Target}
    (h : (source.followRecords target).run service cooling = (requests, .ok records)) :
    ∀ r ∈ records, ∃ post, posts.Describes source.site r post := by
  intro r hr
  obtain ⟨-, h⟩ := StackExchangeSource.run_whenReady_ok.mp h
  split at h
  · cases h
  · obtain ⟨-, -, hreplies⟩ := StackExchangeSource.run_exchange_then_ok.mp h
    obtain ⟨found, hfound, hrecords⟩ := Replies.bind.mp hreplies
    obtain ⟨answer, hanswer, hnormalize⟩ := exists_mem_of_mapM hrecords hr
    exact ⟨_, describes_of_answer (hservice.answers _ found hfound answer hanswer) hnormalize⟩

end Posts

end StackExchange

/-! ## Identity -/

/-- The calls of the source. -/
def StackExchangeSource.upstream [UpstreamLibrary] [UrlLibrary] (source : StackExchangeSource) :
    UpstreamSource where
  search query := (source.searchRecords query).together
  fetch := source.fetchRecord
  follow target := (source.followRecords target).together

namespace StackExchange.Posts

variable [UpstreamLibrary] [UrlLibrary] {posts : Posts} {source : StackExchangeSource}
  {service : HttpRequest → Except SourceError HttpResponse} {record : Record} {post : Post}

/-- **Records describe posts.** Every record that the source returns describes a post.

**Proof sketch.** Every record is made of a question or an answer that the service returns. -/
theorem describes_of_emits (hservice : posts.Answers source service)
    (h : source.upstream.Emits service record) :
    ∃ post, posts.Describes source.site record post := by
  obtain ⟨cooling, ⟨query, h⟩ | ⟨target, h⟩ | ⟨target, h⟩⟩ := h
  · obtain ⟨records, hrun, hmem⟩ := Program.mem_run_together h
    exact describes_of_search hservice (Prod.ext rfl hrun) record hmem
  · exact describes_of_fetch hservice (Prod.ext rfl h)
  · obtain ⟨records, hrun, hmem⟩ := Program.mem_run_together h
    exact describes_of_follow hservice (Prod.ext rfl hrun) record hmem

/-- **Fetches keep the identity of questions.** Fetching the record of a post keeps its identity
exactly when the post is a question, or its question is not delivered.

**Proof sketch.** A fetch that succeeds returns the record of the question, and no answer has the
identifier of a question. -/
theorem keepsIdentity_iff (hservice : posts.Answers source service)
    {asks : HttpRequest → Post → Prop}
    (hasks : ∀ id, asks (StackExchangeSource.getRequest (source.questionUrl id)) (.question id))
    (h : posts.Describes source.site record post) :
    source.upstream.KeepsIdentity service (asks · post) record ↔
      post.page = post ∨ ¬Delivers source service post.questionId := by
  constructor
  · intro hkeeps
    by_contra hnot
    obtain ⟨hpage, hdelivers⟩ := not_or.mp hnot
    obtain ⟨hrequest, fetched, hreplies⟩ := not_not.mp hdelivers
    obtain ⟨-, -, hid⟩ := hkeeps (fun _ => none) _ fetched
      ((StackExchangeSource.run_fetchRecord_ok h).mpr ⟨rfl, hrequest, rfl, hreplies⟩)
    obtain ⟨id, hfetched, hsame⟩ := describes_of_questionRecord hservice hreplies
    obtain rfl := hsame h.1
    exact Post.identifier_page_ne hpage
      (hfetched.2.2.1.symm.trans ((congrArg RecordId.value hid).trans h.2.2.1))
  · intro hcase cooling requests fetched hrun
    obtain ⟨-, hrequest, rfl, hreplies⟩ := (StackExchangeSource.run_fetchRecord_ok h).mp hrun
    rcases hcase with hpage | hdelivers
    · obtain ⟨id, hfetched, hsame⟩ := describes_of_questionRecord hservice hreplies
      obtain rfl := hsame h.1
      refine ⟨⟨_, rfl, ?_⟩, hfetched.2.1.trans h.2.1.symm,
        RecordId.ext_value (hfetched.2.2.1.trans ?_)⟩
      · rw [← hpage]
        exact hasks _
      · rw [h.2.2.1, ← hpage]
        rfl
    · exact absurd ⟨hrequest, fetched, hreplies⟩ hdelivers

end StackExchange.Posts

end Comsat
