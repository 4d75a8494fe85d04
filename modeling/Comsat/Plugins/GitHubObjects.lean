import Comsat.Plugins.GitHubClient
import Comsat.Plugins.Identity

set_option relaxedAutoImplicit false
set_option autoImplicit false

/-!
# Fetching records of the GitHub source

Which objects the records of the source describe, and when fetching a record returns the same
object again.

## Main definitions

* `GitHub.Object` — the objects of the service.
* `GitHub.Objects` — the objects that are present, with their identifiers and their pages.
* `GitHub.Objects.Answers` — a service answers requests with the objects that they ask for.
* `GitHub.Objects.Describes` — a record describes an object.

## Main results

* `GitHub.Objects.parseUrl_address` — what the address of an object addresses.
* `GitHub.Objects.describes_of_emits` — every record that the source returns describes an object.
* `GitHub.Objects.keepsIdentity_iff` — fetching a record keeps its identity, unless the record is
  a comment or a review and its page is delivered.
-/

namespace Comsat

open GitHub

namespace GitHub

/-! ## Objects -/

/-- An object of the service. -/
inductive Object where
  | repository (repository : RepositoryRef)
  /-- An issue or a pull request. -/
  | issue (repository : RepositoryRef) (number : ℕ)
  | discussion (repository : RepositoryRef) (number : ℕ)
  | issueComment (repository : RepositoryRef) (number comment : ℕ)
  | review (repository : RepositoryRef) (number submission : ℕ)
  | reviewComment (repository : RepositoryRef) (number comment : ℕ)
  | discussionComment (repository : RepositoryRef) (number comment : ℕ)
deriving DecidableEq

namespace Object

/-- The object whose page shows an object. -/
def page : Object → Object
  | repository r => repository r
  | issue r number => issue r number
  | discussion r number => discussion r number
  | issueComment r number _ => issue r number
  | review r number _ => issue r number
  | reviewComment r number _ => issue r number
  | discussionComment r number _ => discussion r number

/-- The repository of an object. -/
def repositoryRef : Object → RepositoryRef
  | repository r => r
  | issue r _ => r
  | discussion r _ => r
  | issueComment r _ _ => r
  | review r _ _ => r
  | reviewComment r _ _ => r
  | discussionComment r _ _ => r

/-- The number of the page of an object, if it has one. -/
def number? : Object → Option ℕ
  | repository _ => none
  | issue _ number => some number
  | discussion _ number => some number
  | issueComment _ number _ => some number
  | review _ number _ => some number
  | reviewComment _ number _ => some number
  | discussionComment _ number _ => some number

/-- How the source calls the objects of a kind in identifiers of its own. -/
def kind : Object → String
  | repository _ => "repository"
  | issue _ _ => "issue"
  | discussion _ _ => "discussion"
  | issueComment _ _ _ => "comment"
  | review _ _ _ => "review"
  | reviewComment _ _ _ => "review-comment"
  | discussionComment _ _ _ => "discussion-comment"

/-- Where a page shows an object that is not the page itself. -/
def fragment : Object → Option String
  | repository _ => none
  | issue _ _ => none
  | discussion _ _ => none
  | issueComment _ _ comment => some ("issuecomment-" ++ toString comment)
  | review _ _ submission => some ("pullrequestreview-" ++ toString submission)
  | reviewComment _ _ comment => some ("discussion_r" ++ toString comment)
  | discussionComment _ _ comment => some ("discussioncomment-" ++ toString comment)

end Object

/-- The objects of the service. -/
structure Objects where
  Present : Object → Prop
  /-- Whether an issue is a pull request. -/
  pullRequest : RepositoryRef → ℕ → Bool
  databaseId : Object → ℕ
  /-- The identifier of the node, if the service gives it. -/
  nodeId : Object → Option String
  /-- Owners and repositories have plain names. -/
  plain : ∀ object, Present object →
    IsPlainSegment object.repositoryRef.owner ∧ IsPlainSegment object.repositoryRef.repo
  /-- Numbers begin with one and have at most 64 bits. -/
  numbered : ∀ object, Present object → ∀ number ∈ object.number?, 0 < number ∧ number < 2 ^ 64
  /-- What is shown is shown on a page. -/
  page_present : ∀ object, Present object → Present object.page
  /-- No two objects share an identifier. -/
  recordId_injective : ∀ object other, Present object → Present other →
    recordId object.kind (databaseId object) (nodeId object) =
      recordId other.kind (databaseId other) (nodeId other) → object = other

namespace Objects

variable (objects : Objects)

/-- The path of the page of an object. -/
def path : Object → List String
  | .repository r => [r.owner, r.repo]
  | .issue r number | .issueComment r number _ =>
    [r.owner, r.repo, if objects.pullRequest r number then "pull" else "issues", toString number]
  | .review r number _ | .reviewComment r number _ => [r.owner, r.repo, "pull", toString number]
  | .discussion r number | .discussionComment r number _ =>
    [r.owner, r.repo, "discussions", toString number]

/-- The address of an object. -/
def address (object : Object) : String :=
  webAddress "github.com" (objects.path object) object.fragment

/-- The identifier of the record of an object. -/
def identifier (object : Object) : String :=
  recordId object.kind (objects.databaseId object) (objects.nodeId object)

/-- A payload with an identifier, a node and an address shows an object. -/
def Shows (id : ℕ) (nodeId : Option String) (url : String) (object : Object) : Prop :=
  objects.Present object ∧ id = objects.databaseId object ∧ nodeId = objects.nodeId object ∧
    url = objects.address object

/-- A payload with a node and an address shows an object. -/
def ShowsNode (nodeId url : String) (object : Object) : Prop :=
  objects.Present object ∧ objects.nodeId object = some nodeId ∧ url = objects.address object

/-- A record describes an object. -/
def Describes (record : Record) (object : Object) : Prop :=
  objects.Present object ∧ record.source = sourceId ∧
    record.id.value = objects.identifier object ∧ record.url = objects.address object

end Objects

end GitHub

/-! ## Targets -/

/-- A segment of plain characters is plain. -/
lemma isPlainSegment_of_all {segment : String}
    (h : segment ≠ "" ∧ segment ≠ "." ∧ segment ≠ ".." ∧ segment.toList.all isPlainChar = true) :
    IsPlainSegment segment :=
  ⟨h.1, h.2.1, h.2.2.1, List.all_eq_true.mp h.2.2.2⟩

/-- The digits of a number are plain characters. -/
lemma isPlainChar_of_mem_toString {n : ℕ} {c : Char} (h : c ∈ (toString n).toList) :
    isPlainChar c = true := by
  have hdigit := Text.isDigit_of_mem_nat_toString h
  simp [isPlainChar, Char.isAlphanum, hdigit]

/-- A number is a plain segment. -/
lemma isPlainSegment_toString (n : ℕ) : IsPlainSegment (toString n) := by
  have hdigit : ∀ c ∈ (toString n).toList, c.isDigit = true := fun c hc =>
    Text.isDigit_of_mem_nat_toString hc
  refine ⟨?_, ?_, ?_, fun c hc => isPlainChar_of_mem_toString hc⟩
  · rw [Nat.toString_eq_repr]
    exact Nat.repr_ne_empty
  · intro h
    exact absurd (hdigit '.' (h ▸ by decide)) (by decide)
  · intro h
    exact absurd (hdigit '.' (h ▸ by decide)) (by decide)

namespace GitHubTarget

/-- A plain segment is valid. -/
lemma validateSegment_of_plain {segment : String} (h : IsPlainSegment segment) :
    validateSegment segment = .ok () :=
  if_pos ⟨h.1, h.2.1, h.2.2.1, List.all_eq_true.mpr h.2.2.2⟩

/-- A repository with a plain name. -/
lemma namedRepository_of_plain {repository : RepositoryRef} (howner : IsPlainSegment repository.owner)
    (hrepo : IsPlainSegment repository.repo) :
    namedRepository repository.owner repository.repo = .ok repository := by
  rw [namedRepository, validateSegment_of_plain howner, validateSegment_of_plain hrepo]
  rfl

/-- The number of an object is read back. -/
lemma parseNumber_toString {n : ℕ} (hpos : 0 < n) (hlt : n < 2 ^ 64) :
    parseNumber (toString n) = .ok n := by
  rw [parseNumber, parseU64_toString hlt]
  cases n with
  | zero => exact absurd hpos (lt_irrefl 0)
  | succ n => rfl

end GitHubTarget

namespace GitHub.Objects

variable (objects : Objects)

/-- What the address of an object addresses. -/
def target : Object → GitHubTarget
  | .repository r => .repository r
  | .issue r number | .issueComment r number _ =>
    .issue r number (some (objects.pullRequest r number))
  | .review r number _ | .reviewComment r number _ => .issue r number (some true)
  | .discussion r number | .discussionComment r number _ => .discussion r number

variable {objects}

/-- The path of an object that is present is one of plain segments. -/
lemma isPlainSegment_of_mem_path {object : Object} (h : objects.Present object) {segment : String}
    (hmem : segment ∈ objects.path object) : IsPlainSegment segment := by
  obtain ⟨howner, hrepo⟩ := objects.plain object h
  have hissues : IsPlainSegment "issues" := isPlainSegment_of_all (by decide)
  have hpull : IsPlainSegment "pull" := isPlainSegment_of_all (by decide)
  have hdiscussions : IsPlainSegment "discussions" := isPlainSegment_of_all (by decide)
  cases object <;>
    simp only [path, List.mem_cons, List.not_mem_nil, or_false] at hmem
  case repository r =>
    rcases hmem with rfl | rfl
    exacts [howner, hrepo]
  all_goals
    rcases hmem with rfl | rfl | rfl | rfl
    · exact howner
    · exact hrepo
    · first
        | assumption
        | split <;> assumption
    · exact isPlainSegment_toString _

/-- The fragment of the address of an object is one of plain characters. -/
lemma isPlainChar_of_mem_fragment {object : Object} {fragment : String}
    (h : fragment ∈ object.fragment) {c : Char} (hc : c ∈ fragment.toList) :
    isPlainChar c = true := by
  have happend : ∀ (text : String) (n : ℕ), text.toList.all isPlainChar = true →
      fragment = text ++ toString n → isPlainChar c = true := by
    intro text n htext heq
    rw [heq, String.toList_append, List.mem_append] at hc
    exact hc.elim (List.all_eq_true.mp htext c) isPlainChar_of_mem_toString
  cases object with
  | repository r => cases h
  | issue r number => cases h
  | discussion r number => cases h
  | issueComment r number comment => exact happend _ _ (by decide) (Option.some.inj h).symm
  | review r number submission => exact happend _ _ (by decide) (Option.some.inj h).symm
  | reviewComment r number comment => exact happend _ _ (by decide) (Option.some.inj h).symm
  | discussionComment r number comment => exact happend _ _ (by decide) (Option.some.inj h).symm

/-- **Addresses are read.** The address of an object that is present addresses its page.

**Proof sketch.** The parser reads the segments of the path; the name of the repository is valid
and the number is read back. -/
theorem parseUrl_address [UrlLibrary] {object : Object} (h : objects.Present object) :
    GitHubTarget.parseUrl (objects.address object) = .ok (objects.target object) := by
  obtain ⟨howner, hrepo⟩ := objects.plain object h
  have hnamed := GitHubTarget.namedRepository_of_plain howner hrepo
  have hnumber : ∀ number ∈ object.number?, GitHubTarget.parseNumber (toString number) = .ok number :=
    fun number hmem => GitHubTarget.parseNumber_toString (objects.numbered object h number hmem).1
      (objects.numbered object h number hmem).2
  obtain ⟨url, hparse, hhost, hpath⟩ := UrlLibrary.parse_address (objects.path object)
    object.fragment (by cases object <;> simp [path])
    (fun segment hmem => isPlainSegment_of_mem_path h hmem)
    (fun fragment hmem c hc => isPlainChar_of_mem_fragment hmem hc)
  have hdomain : UrlLibrary.domain url = some "github.com" := by rw [UrlLibrary.domain, hhost]
  rw [GitHubTarget.parseUrl, address, hparse]
  simp only [hdomain, ne_eq, not_true_eq_false, if_false, hpath, Option.getD_some]
  cases object with
  | repository r =>
    simp only [Object.repositoryRef] at hnamed
    simp [path, target, hnamed, bind, Except.bind, pure, Except.pure]
  | issue r number | issueComment r number comment =>
    have hn := hnumber number rfl
    rw [Nat.toString_eq_repr] at hn
    simp only [Object.repositoryRef] at hnamed
    cases hpull : objects.pullRequest r number <;>
      simp [path, target, hpull, hnamed, hn, bind, Except.bind, pure, Except.pure]
  | discussion r number | review r number id | reviewComment r number id
  | discussionComment r number id =>
    have hn := hnumber number rfl
    rw [Nat.toString_eq_repr] at hn
    simp only [Object.repositoryRef] at hnamed
    simp [path, target, hnamed, hn, bind, Except.bind, pure, Except.pure]

end GitHub.Objects

/-! ## Requests and answers -/

namespace GitHubSource

variable (source : GitHubSource)

/-- A request to the REST interface. -/
def getRequest (url : String) : HttpRequest := ⟨"GET", url, source.headers, none⟩

/-- A request to the GraphQL interface. -/
def postRequest (request : Json) : HttpRequest := ⟨"POST", graphqlUrl, source.headers, some request⟩

/-- The request for the page of an object. -/
def pageRequest : Object → HttpRequest
  | .repository r => source.getRequest (repositoryUrl r)
  | .issue r number | .issueComment r number _ | .review r number _ | .reviewComment r number _ =>
    source.getRequest (issueUrl r number)
  | .discussion r number | .discussionComment r number _ =>
    source.postRequest (fetchDiscussion r number)

end GitHubSource

namespace GitHub

variable [UpstreamLibrary]

/-- Reads the body of an answer. -/
def readBody {α : Type} (read : Json → Option α) (response : HttpResponse) : Except SourceError α :=
  (checkedBody response).bind (decode read)

/-- Reads the data of an answer about discussions. -/
def readData {α : Type} (read : Json → Except SourceError α) (response : HttpResponse) :
    Except SourceError α :=
  ((checkedBody response).bind payload).bind read

/-- Data that is read further. -/
lemma readData_bind {α β : Type} {read : Json → Except SourceError α}
    {f : α → Except SourceError β} :
    (readData fun data => (read data).bind f) =
      fun response => (readData read response).bind f := by
  funext response
  simp only [readData]
  cases (checkedBody response).bind payload <;> rfl

/-- The record that is made of the answer to the request for the page of an object. -/
def pageRecord : Object → HttpResponse → Except SourceError Record
  | .repository _ => fun response => (readBody Repository.fromValue response).bind GitHub.repository
  | .issue _ _ | .issueComment _ _ _ | .review _ _ _ | .reviewComment _ _ _ =>
    fun response => (readBody Issue.fromValue response).bind GitHub.issue
  | .discussion r _ | .discussionComment r _ _ => fun response =>
    (readData (fun data => node Discussion.fromValue data ["repository", "discussion"])
      response).bind fun discussion => discussionRecord discussion r

/-- Discussions are asked for with a token. -/
def Object.NeedsToken : Object → Prop
  | .discussion _ _ | .discussionComment _ _ _ => True
  | _ => False

/-- The service delivers the page of an object. -/
def Delivers (source : GitHubSource) (service : HttpRequest → Except SourceError HttpResponse)
    (object : Object) : Prop :=
  (object.NeedsToken → source.token.isSome) ∧
    UpstreamLibrary.requestError (source.pageRequest object) = none ∧
    ∃ record, Replies service (source.pageRequest object) (pageRecord object) record

namespace Objects

variable (objects : Objects) (source : GitHubSource)

/-- A service answers requests with the objects that they ask for: what it returns is present, and
a request for an object that is present returns this object. -/
structure Answers (service : HttpRequest → Except SourceError HttpResponse) : Prop where
  issues : ∀ text limit found,
    Replies service (source.getRequest (GitHubSource.searchUrl "issues" text limit))
      (readBody (SearchResponse.fromValue Issue.fromValue)) found →
    ∀ issue ∈ found, ∃ r number,
      objects.Shows issue.id issue.nodeId issue.htmlUrl (.issue r number)
  repositories : ∀ text limit found,
    Replies service (source.getRequest (GitHubSource.searchUrl "repositories" text limit))
      (readBody (SearchResponse.fromValue Repository.fromValue)) found →
    ∀ repository ∈ found, ∃ r,
      objects.Shows repository.id repository.nodeId repository.htmlUrl (.repository r)
  discussions : ∀ text limit found,
    Replies service (source.postRequest (GitHub.searchDiscussions text limit))
      (readData fun data => nodes Discussion.fromValue data ["search", "nodes"]) found →
    ∀ discussion ∈ found, ∃ r number,
      objects.ShowsNode discussion.id discussion.url (.discussion r number)
  repository : ∀ asked found,
    Replies service (source.getRequest (GitHubSource.repositoryUrl asked))
      (readBody Repository.fromValue) found →
    ∃ r, objects.Shows found.id found.nodeId found.htmlUrl (.repository r) ∧
      (objects.Present (.repository asked) → r = asked)
  issue : ∀ asked askedNumber found,
    Replies service (source.getRequest (GitHubSource.issueUrl asked askedNumber))
      (readBody Issue.fromValue) found →
    ∃ r number, objects.Shows found.id found.nodeId found.htmlUrl (.issue r number) ∧
      (objects.Present (.issue asked askedNumber) → r = asked ∧ number = askedNumber)
  discussion : ∀ asked askedNumber found,
    Replies service (source.postRequest (fetchDiscussion asked askedNumber))
      (readData fun data => node Discussion.fromValue data ["repository", "discussion"]) found →
    ∃ r number, objects.ShowsNode found.id found.url (.discussion r number) ∧
      (objects.Present (.discussion asked askedNumber) → r = asked ∧ number = askedNumber)
  issueComments : ∀ asked askedNumber found,
    Replies service (source.getRequest (GitHubSource.issueUrl asked askedNumber ++
        "/comments?per_page=" ++ toString maxLimit))
      (readBody (Json.items IssueComment.fromValue)) found →
    ∀ comment ∈ found, ∃ r number id,
      objects.Shows comment.id comment.nodeId comment.htmlUrl (.issueComment r number id)
  reviews : ∀ asked askedNumber found,
    Replies service (source.getRequest (GitHubSource.pullUrl asked askedNumber ++
        "/reviews?per_page=" ++ toString maxLimit))
      (readBody (Json.items Review.fromValue)) found →
    ∀ review ∈ found, ∃ r number id,
      objects.Shows review.id review.nodeId review.htmlUrl (.review r number id)
  reviewComments : ∀ asked askedNumber found,
    Replies service (source.getRequest (GitHubSource.pullUrl asked askedNumber ++
        "/comments?per_page=" ++ toString maxLimit))
      (readBody (Json.items ReviewComment.fromValue)) found →
    ∀ comment ∈ found, ∃ r number id,
      objects.Shows comment.id comment.nodeId comment.htmlUrl (.reviewComment r number id)
  repositoryDiscussions : ∀ asked found,
    Replies service (source.postRequest (GitHub.repositoryDiscussions asked maxLimit))
      (readData fun data => nodes Discussion.fromValue data ["repository", "discussions", "nodes"])
      found →
    ∀ discussion ∈ found, ∃ r number,
      objects.ShowsNode discussion.id discussion.url (.discussion r number)
  discussionComments : ∀ asked askedNumber found,
    Replies service (source.postRequest (GitHub.discussionComments asked askedNumber maxLimit))
      (readData fun data => nodes DiscussionComment.fromValue data
        ["repository", "discussion", "comments", "nodes"]) found →
    ∀ comment ∈ found, ∃ r number id,
      objects.ShowsNode comment.id comment.url (.discussionComment r number id)

end Objects

/-! ## Calls that succeed -/

section

variable {service : HttpRequest → Except SourceError HttpResponse}
  {cooling : OperationKind → Option ℕ} {requests : List HttpRequest}

omit [UpstreamLibrary] in
/-- Noting a rate limit sends nothing. -/
@[simp] lemma run_observeError {α : Type} (operation : OperationKind) (error : SourceError)
    (next : Program α) :
    (observeError operation error next).run service cooling = next.run service cooling := by
  rw [observeError]
  split <;> rfl

/-- A request succeeds when the library accepts it and the body of the answer can be read. -/
lemma run_exchange_ok {operation : OperationKind} {request : HttpRequest} {body : Option Json} :
    (exchange operation request).run service cooling = (requests, .ok body) ↔
      UpstreamLibrary.requestError request = none ∧ requests = [request] ∧
        Replies service request checkedBody body := by
  rw [exchange]
  cases hrequest : UpstreamLibrary.requestError request with
  | some message => simp [Program.run]
  | none =>
    simp only [Program.run, Replies, true_and]
    cases hservice : service request with
    | error e => simp [Program.run]
    | ok response =>
      cases hbody : checkedBody response with
      | ok read => simp [hbody, Program.run, eq_comm]
      | error e => simp [hbody, Program.run]

end

end GitHub

namespace GitHubSource

variable [UpstreamLibrary] {source : GitHubSource}
  {service : HttpRequest → Except SourceError HttpResponse}
  {cooling : OperationKind → Option ℕ} {requests : List HttpRequest} {α : Type}

/-- A request to the REST interface that succeeds. -/
lemma run_rest_ok {read : Json → Option α} {operation : OperationKind} {url : String} {a : α} :
    (source.rest read operation url).run service cooling = (requests, .ok a) ↔
      UpstreamLibrary.requestError (source.getRequest url) = none ∧
        requests = [source.getRequest url] ∧
        Replies service (source.getRequest url) (readBody read) a := by
  rw [rest, Program.run_andThen_done_ok]
  simp only [run_exchange_ok]
  constructor
  · rintro ⟨body, ⟨hrequest, rfl, hbody⟩, hread⟩
    exact ⟨hrequest, rfl, Replies.bind.mpr ⟨body, hbody, hread⟩⟩
  · rintro ⟨hrequest, rfl, hreplies⟩
    obtain ⟨body, hbody, hread⟩ := Replies.bind.mp hreplies
    exact ⟨body, ⟨hrequest, rfl, hbody⟩, hread⟩

/-- A request to the REST interface that succeeds, and whose value is read further. -/
lemma run_rest_then_ok {β : Type} {read : Json → Option α} {f : α → Except SourceError β}
    {operation : OperationKind} {url : String} {b : β} :
    ((source.rest read operation url).andThen fun a => .done (f a)).run service cooling =
        (requests, .ok b) ↔
      UpstreamLibrary.requestError (source.getRequest url) = none ∧
        requests = [source.getRequest url] ∧
        Replies service (source.getRequest url) (fun response => (readBody read response).bind f)
          b := by
  simp only [Program.run_andThen_done_ok, run_rest_ok, Replies.bind]
  constructor
  · rintro ⟨value, ⟨hrequest, rfl, hreplies⟩, hrecord⟩
    exact ⟨hrequest, rfl, value, hreplies, hrecord⟩
  · rintro ⟨hrequest, rfl, value, hreplies, hrecord⟩
    exact ⟨value, ⟨hrequest, rfl, hreplies⟩, hrecord⟩

/-- A request to the GraphQL interface that succeeds, and whose data is read. -/
lemma run_graphql_ok {read : Json → Except SourceError α} {operation : OperationKind}
    {request : Json} {a : α} :
    ((source.graphql operation request).andThen fun data => .done (read data)).run service cooling =
        (requests, .ok a) ↔
      source.token.isSome ∧ UpstreamLibrary.requestError (source.postRequest request) = none ∧
        requests = [source.postRequest request] ∧
        Replies service (source.postRequest request) (readData read) a := by
  rw [Program.run_andThen_done_ok, graphql]
  cases htoken : source.token with
  | none => simp [Program.run]
  | some token =>
    simp only [Option.isNone_some, Bool.false_eq_true, if_false, Option.isSome_some, true_and,
      Program.run_andThen_done_ok, run_exchange_ok]
    constructor
    · rintro ⟨data, ⟨body, ⟨hrequest, rfl, hbody⟩, hpayload⟩, hread⟩
      exact ⟨hrequest, rfl, Replies.bind.mpr ⟨data, Replies.bind.mpr ⟨body, hbody, hpayload⟩, hread⟩⟩
    · rintro ⟨hrequest, rfl, hreplies⟩
      obtain ⟨data, hdata, hread⟩ := Replies.bind.mp hreplies
      obtain ⟨body, hbody, hpayload⟩ := Replies.bind.mp hdata
      exact ⟨data, ⟨body, ⟨hrequest, rfl, hbody⟩, hpayload⟩, hread⟩

omit [UpstreamLibrary] in
/-- A call that is not held back. -/
lemma run_whenReady_ok {operation : OperationKind} {next : Program (Except SourceError α)} {a : α} :
    (whenReady operation next).run service cooling = (requests, .ok a) ↔
      cooling operation = none ∧ next.run service cooling = (requests, .ok a) := by
  rw [whenReady, Program.run]
  cases cooling operation with
  | none => simp
  | some remaining => simp [Program.run]

variable [UrlLibrary]

/-- **Fetches of records.** Fetching a record that describes an object asks for the page of the
object, and returns the record that is made of the answer.

**Proof sketch.** The URL of the record addresses the page of the object; the three kinds of pages
are asked for alike. -/
theorem run_fetchRecord_ok {objects : Objects} {record : Record} {object : Object}
    (h : objects.Describes record object) {fetched : Record} :
    (source.fetchRecord (.record record)).run service cooling = (requests, .ok fetched) ↔
      cooling .fetch = none ∧ (object.NeedsToken → source.token.isSome) ∧
        UpstreamLibrary.requestError (source.pageRequest object) = none ∧
        requests = [source.pageRequest object] ∧
        Replies service (source.pageRequest object) (pageRecord object) fetched := by
  obtain ⟨hpresent, hsource, -, hurl⟩ := h
  have htarget : GitHubTarget.fromTarget (.record record) = .ok (objects.target object) := by
    rw [GitHubTarget.fromTarget, hsource, hurl, GitHub.Objects.parseUrl_address hpresent]
    rfl
  rw [fetchRecord, run_whenReady_ok, htarget]
  refine and_congr_right fun _ => ?_
  cases object with
  | repository r | issue r number | issueComment r number id | review r number id
  | reviewComment r number id =>
    simp only [Objects.target, run_rest_then_ok, pageRequest, pageRecord, Object.NeedsToken,
      false_implies, true_and]
  | discussion r number | discussionComment r number id =>
    simp only [Objects.target, run_graphql_ok, pageRequest, pageRecord, Object.NeedsToken,
      true_implies, bind, readData_bind]

end GitHubSource

/-! ## Records and their objects -/

namespace GitHub

variable [UpstreamLibrary]

/-- A record that the source has put together. -/
lemma record_ok {id url : String}
    {kind title text author createdAt updatedAt metadata : Json} {r : Record}
    (h : record (.obj [("id", .str id), ("source", .str "github"), ("kind", kind),
      ("url", .str url), ("title", title), ("text", text), ("author", author),
      ("created_at", createdAt), ("updated_at", updatedAt), ("metadata", metadata)]) = .ok r) :
    r.source = sourceId ∧ r.id.value = id ∧ r.url = url := by
  rw [record] at h
  split at h
  · rename_i found hfound
    obtain rfl := Except.ok.inj h
    obtain ⟨hid, hsource, hurl, -⟩ := Record.fromValue_fields hfound
    exact ⟨SourceId.ext_value hsource, hid, hurl⟩
  · cases h

namespace Objects

variable {objects : Objects} {r : Record} {object : Object}

omit [UpstreamLibrary] in
/-- The record of a payload that shows an object describes the object. -/
lemma describes_of_shows {id : ℕ} {nodeId : Option String} {url : String}
    (h : objects.Shows id nodeId url object)
    (hr : r.source = sourceId ∧ r.id.value = recordId object.kind id nodeId ∧ r.url = url) :
    objects.Describes r object := by
  obtain ⟨hpresent, rfl, rfl, rfl⟩ := h
  exact ⟨hpresent, hr⟩

omit [UpstreamLibrary] in
/-- The record of a payload with a node that shows an object describes the object. -/
lemma describes_of_showsNode {nodeId url : String} (h : objects.ShowsNode nodeId url object)
    (hr : r.source = sourceId ∧ r.id.value = nodeId ∧ r.url = url) : objects.Describes r object := by
  obtain ⟨hpresent, hnode, rfl⟩ := h
  refine ⟨hpresent, hr.1, ?_, hr.2.2⟩
  rw [identifier, recordId, hnode, hr.2.1, Option.getD_some]

variable {source : GitHubSource} {service : HttpRequest → Except SourceError HttpResponse}
  {cooling : OperationKind → Option ℕ} {requests : List HttpRequest} {records : List Record}

/-- Records that are made of what a request to the REST interface lists. -/
lemma describes_of_listed {α : Type} {read : Json → Option (List α)}
    {normalize : α → Except SourceError Record} {operation : OperationKind} {url : String}
    (hlisted : ∀ found, Replies service (source.getRequest url) (readBody read) found →
      ∀ a ∈ found, ∀ r, normalize a = .ok r → ∃ object, objects.Describes r object)
    (h : ((source.rest read operation url).andThen fun found =>
      .done (found.mapM normalize)).run service cooling = (requests, .ok records)) :
    ∀ r ∈ records, ∃ object, objects.Describes r object := by
  intro r hr
  obtain ⟨-, -, hreplies⟩ := GitHubSource.run_rest_then_ok.mp h
  obtain ⟨found, hfound, hrecords⟩ := Replies.bind.mp hreplies
  obtain ⟨a, ha, hnormalize⟩ := exists_mem_of_mapM hrecords hr
  exact hlisted found hfound a ha r hnormalize

/-- Records that are made of what a request to the GraphQL interface lists. -/
lemma describes_of_nodes {α : Type} {read : Json → Except SourceError (List α)}
    {normalize : α → Except SourceError Record} {operation : OperationKind} {request : Json}
    (hlisted : ∀ found, Replies service (source.postRequest request) (readData read) found →
      ∀ a ∈ found, ∀ r, normalize a = .ok r → ∃ object, objects.Describes r object)
    (h : ((source.graphql operation request).andThen fun data =>
      .done ((read data).bind fun found => found.mapM normalize)).run service cooling =
        (requests, .ok records)) :
    ∀ r ∈ records, ∃ object, objects.Describes r object := by
  intro r hr
  obtain ⟨-, -, -, hreplies⟩ := GitHubSource.run_graphql_ok.mp h
  rw [readData_bind] at hreplies
  obtain ⟨found, hfound, hrecords⟩ := Replies.bind.mp hreplies
  obtain ⟨a, ha, hnormalize⟩ := exists_mem_of_mapM hrecords hr
  exact hlisted found hfound a ha r hnormalize

/-- The records that a search returns describe objects. -/
lemma describes_of_search (hservice : objects.Answers source service) {query : Query}
    (h : (source.searchRecords query).run service cooling = (requests, .ok records)) :
    ∀ r ∈ records, ∃ object, objects.Describes r object := by
  rw [GitHubSource.searchRecords] at h
  split at h
  · cases h
  obtain ⟨-, h⟩ := GitHubSource.run_whenReady_ok.mp h
  simp only at h
  split at h
  · refine describes_of_listed (fun found hfound issue hissue r hr => ?_) h
    obtain ⟨repository, number, hshows⟩ := hservice.issues _ _ found hfound issue hissue
    exact ⟨_, describes_of_shows hshows (record_ok hr)⟩
  · refine describes_of_listed (fun found hfound repository hrepository r hr => ?_) h
    obtain ⟨name, hshows⟩ := hservice.repositories _ _ found hfound repository hrepository
    exact ⟨_, describes_of_shows hshows (record_ok hr)⟩
  · refine describes_of_nodes (fun found hfound discussion hdiscussion r hr => ?_) h
    obtain ⟨repository, number, hshows⟩ := hservice.discussions _ _ found hfound discussion hdiscussion
    exact ⟨_, describes_of_showsNode hshows (record_ok hr)⟩

/-- The comments on an issue describe objects. -/
lemma describes_of_issueComments (hservice : objects.Answers source service)
    {repository : RepositoryRef} {number : ℕ}
    (h : (source.issueComments repository number).run service cooling = (requests, .ok records)) :
    ∀ r ∈ records, ∃ object, objects.Describes r object := by
  refine describes_of_listed (fun found hfound comment hcomment r hr => ?_) h
  obtain ⟨_, _, _, hshows⟩ := hservice.issueComments _ _ found hfound comment hcomment
  exact ⟨_, describes_of_shows hshows (record_ok hr)⟩

/-- The reviews of a pull request describe objects. -/
lemma describes_of_reviews (hservice : objects.Answers source service)
    {repository : RepositoryRef} {number : ℕ}
    (h : (source.reviews repository number).run service cooling = (requests, .ok records)) :
    ∀ r ∈ records, ∃ object, objects.Describes r object := by
  refine describes_of_listed (fun found hfound review hreview r hr => ?_) h
  obtain ⟨_, _, _, hshows⟩ := hservice.reviews _ _ found hfound review hreview
  exact ⟨_, describes_of_shows hshows (record_ok hr)⟩

/-- The comments of the reviews of a pull request describe objects. -/
lemma describes_of_reviewComments (hservice : objects.Answers source service)
    {repository : RepositoryRef} {number : ℕ}
    (h : (source.reviewComments repository number).run service cooling = (requests, .ok records)) :
    ∀ r ∈ records, ∃ object, objects.Describes r object := by
  refine describes_of_listed (fun found hfound comment hcomment r hr => ?_) h
  obtain ⟨_, _, _, hshows⟩ := hservice.reviewComments _ _ found hfound comment hcomment
  exact ⟨_, describes_of_shows hshows (record_ok hr)⟩

/-- What follows an issue or a pull request describes objects. -/
lemma describes_of_issueDiscussion (hservice : objects.Answers source service)
    {repository : RepositoryRef} {number : ℕ} {pullRequest : Option Bool}
    (h : (source.issueDiscussion repository number pullRequest).run service cooling =
      (requests, .ok records)) :
    ∀ r ∈ records, ∃ object, objects.Describes r object := by
  rw [GitHubSource.issueDiscussion.eq_def] at h
  obtain ⟨_, known, _, -, h, -⟩ := Program.run_andThen_ok h
  obtain ⟨_, comments, _, hcomments, h, -⟩ := Program.run_andThen_ok h
  have hdescribes := describes_of_issueComments hservice hcomments
  split at h
  · obtain ⟨_, reviews, _, hreviews, h, -⟩ := Program.run_andThen_ok h
    obtain ⟨_, reviewComments, _, hreviewComments, h, -⟩ := Program.run_andThen_ok h
    obtain rfl := Except.ok.inj (Prod.mk.inj h).2
    intro r hr
    rcases List.mem_append.mp hr with hr | hr
    · exact (List.mem_append.mp hr).elim (hdescribes r) (describes_of_reviews hservice hreviews r)
    · exact describes_of_reviewComments hservice hreviewComments r hr
  · obtain rfl := Except.ok.inj (Prod.mk.inj h).2
    exact hdescribes

variable [UrlLibrary]

/-- The records that a follow returns describe objects. -/
lemma describes_of_follow (hservice : objects.Answers source service) {target : Target}
    (h : (source.followRecords target).run service cooling = (requests, .ok records)) :
    ∀ r ∈ records, ∃ object, objects.Describes r object := by
  obtain ⟨-, h⟩ := GitHubSource.run_whenReady_ok.mp h
  split at h
  · cases h
  · refine describes_of_nodes (fun found hfound discussion hdiscussion r hr => ?_) h
    obtain ⟨_, _, hshows⟩ :=
      hservice.repositoryDiscussions _ found hfound discussion hdiscussion
    exact ⟨_, describes_of_showsNode hshows (record_ok hr)⟩
  · exact describes_of_issueDiscussion hservice h
  · refine describes_of_nodes (fun found hfound comment hcomment r hr => ?_) h
    obtain ⟨_, _, _, hshows⟩ := hservice.discussionComments _ _ found hfound comment hcomment
    exact ⟨_, describes_of_showsNode hshows (record_ok hr)⟩

omit [UrlLibrary] in
/-- The record that is made of the page of an object that is present describes the page. -/
lemma describes_of_pageRecord (hservice : objects.Answers source service)
    (hpresent : objects.Present object)
    (h : Replies service (source.pageRequest object) (pageRecord object) r) :
    objects.Describes r object.page := by
  have hpage := objects.page_present object hpresent
  cases object with
  | repository repository =>
    obtain ⟨found, hfound, hr⟩ := Replies.bind.mp h
    obtain ⟨_, hshows, hsame⟩ := hservice.repository _ found hfound
    obtain rfl := hsame hpage
    exact describes_of_shows hshows (record_ok hr)
  | issue repository number | issueComment repository number id | review repository number id
  | reviewComment repository number id =>
    obtain ⟨found, hfound, hr⟩ := Replies.bind.mp h
    obtain ⟨_, _, hshows, hsame⟩ := hservice.issue _ _ found hfound
    obtain ⟨rfl, rfl⟩ := hsame hpage
    exact describes_of_shows hshows (record_ok hr)
  | discussion repository number | discussionComment repository number id =>
    obtain ⟨found, hfound, hr⟩ := Replies.bind.mp h
    obtain ⟨_, _, hshows, hsame⟩ := hservice.discussion _ _ found hfound
    obtain ⟨rfl, rfl⟩ := hsame hpage
    exact describes_of_showsNode hshows (record_ok hr)

/-- The record that a fetch returns describes an object. -/
lemma describes_of_fetch (hservice : objects.Answers source service) {target : Target}
    (h : (source.fetchRecord target).run service cooling = (requests, .ok r)) :
    ∃ object, objects.Describes r object := by
  obtain ⟨-, h⟩ := GitHubSource.run_whenReady_ok.mp h
  split at h
  · cases h
  · obtain ⟨-, -, hreplies⟩ := GitHubSource.run_rest_then_ok.mp h
    obtain ⟨found, hfound, hr⟩ := Replies.bind.mp hreplies
    obtain ⟨_, hshows, -⟩ := hservice.repository _ found hfound
    exact ⟨_, describes_of_shows hshows (record_ok hr)⟩
  · obtain ⟨-, -, hreplies⟩ := GitHubSource.run_rest_then_ok.mp h
    obtain ⟨found, hfound, hr⟩ := Replies.bind.mp hreplies
    obtain ⟨_, _, hshows, -⟩ := hservice.issue _ _ found hfound
    exact ⟨_, describes_of_shows hshows (record_ok hr)⟩
  · obtain ⟨-, -, -, hreplies⟩ := GitHubSource.run_graphql_ok.mp h
    simp only [bind, readData_bind] at hreplies
    obtain ⟨found, hfound, hr⟩ := Replies.bind.mp hreplies
    obtain ⟨_, _, hshows, -⟩ := hservice.discussion _ _ found hfound
    exact ⟨_, describes_of_showsNode hshows (record_ok hr)⟩

end Objects

end GitHub

/-! ## Identity -/

/-- The calls of the source. -/
def GitHubSource.upstream [UpstreamLibrary] [UrlLibrary] (source : GitHubSource) :
    UpstreamSource where
  search query := (source.searchRecords query).together
  fetch := source.fetchRecord
  follow target := (source.followRecords target).together

namespace GitHub.Objects

variable [UpstreamLibrary] [UrlLibrary] {objects : Objects} {source : GitHubSource}
  {service : HttpRequest → Except SourceError HttpResponse} {record : Record} {object : Object}

/-- **Records describe objects.** Every record that the source returns describes an object.

**Proof sketch.** Every record is made of a payload, and every payload that the service returns
shows an object. -/
theorem describes_of_emits (hservice : objects.Answers source service)
    (h : source.upstream.Emits service record) : ∃ object, objects.Describes record object := by
  obtain ⟨cooling, ⟨query, h⟩ | ⟨target, h⟩ | ⟨target, h⟩⟩ := h
  · obtain ⟨records, hrun, hmem⟩ := Program.mem_run_together h
    exact describes_of_search hservice (Prod.ext rfl hrun) record hmem
  · exact describes_of_fetch hservice (Prod.ext rfl h)
  · obtain ⟨records, hrun, hmem⟩ := Program.mem_run_together h
    exact describes_of_follow hservice (Prod.ext rfl hrun) record hmem

/-- **Fetches keep the identity of pages.** Fetching the record of an object keeps its identity
exactly when the object has a page of its own, or its page is not delivered.

**Proof sketch.** A fetch that succeeds returns the record of the page of the object. Comments and
reviews do not share their identifier with the page that shows them. -/
theorem keepsIdentity_iff (hservice : objects.Answers source service)
    {asks : HttpRequest → Object → Prop}
    (hasks : ∀ page, page.page = page → asks (source.pageRequest page) page)
    (h : objects.Describes record object) :
    source.upstream.KeepsIdentity service (asks · object) record ↔
      object.page = object ∨ ¬Delivers source service object := by
  constructor
  · intro hkeeps
    by_contra hnot
    obtain ⟨hpage, hdelivers⟩ := not_or.mp hnot
    obtain ⟨htoken, hrequest, fetched, hreplies⟩ := not_not.mp hdelivers
    obtain ⟨-, -, hid⟩ := hkeeps (fun _ => none) _ fetched
      ((GitHubSource.run_fetchRecord_ok h).mpr ⟨rfl, htoken, hrequest, rfl, hreplies⟩)
    have hfetched := describes_of_pageRecord hservice h.1 hreplies
    refine hpage (objects.recordId_injective _ _ (objects.page_present object h.1) h.1 ?_)
    exact hfetched.2.2.1.symm.trans ((congrArg RecordId.value hid).trans h.2.2.1)
  · intro hcase cooling requests fetched hrun
    obtain ⟨-, htoken, hrequest, rfl, hreplies⟩ := (GitHubSource.run_fetchRecord_ok h).mp hrun
    rcases hcase with hpage | hdelivers
    · have hfetched := describes_of_pageRecord hservice h.1 hreplies
      rw [hpage] at hfetched
      exact ⟨⟨_, rfl, hasks object hpage⟩, hfetched.2.1.trans h.2.1.symm,
        RecordId.ext_value (hfetched.2.2.1.trans h.2.2.1.symm)⟩
    · exact absurd ⟨htoken, hrequest, fetched, hreplies⟩ hdelivers

end GitHub.Objects

end Comsat
