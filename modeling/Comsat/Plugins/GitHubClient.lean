import Comsat.Plugins.GitHub

set_option relaxedAutoImplicit false
set_option autoImplicit false

/-!
# Calls of the GitHub source

What a target addresses, which requests a call sends, and how it reads the answers.

## Main definitions

* `GitHubTarget`, `GitHubTarget.fromTarget` — what a target addresses.
* `GitHub.checkedBody`, `GitHub.payload` — the body of an answer, and the data in it.
* `GitHubSource.searchRecords`, `GitHubSource.fetchRecord`, `GitHubSource.followRecords` — the
  calls.
-/

namespace Comsat

open GitHub

/-! ## Targets -/

/-- An object that a fetch or a follow can address. -/
inductive GitHubTarget where
  | repository (repository : RepositoryRef)
  /-- An issue or a pull request, if that is known. -/
  | issue (repository : RepositoryRef) (number : ℕ) (pullRequest : Option Bool)
  | discussion (repository : RepositoryRef) (number : ℕ)
deriving DecidableEq

namespace GitHubTarget

/-- A segment of a path must be plain. -/
def validateSegment (value : String) : Except SourceError Unit :=
  if value ≠ "" ∧ value ≠ "." ∧ value ≠ ".." ∧ value.toList.all isPlainChar = true then .ok ()
  else .error (invalidQuery "GitHub target path segment is invalid")

/-- A repository with a valid name. -/
def namedRepository (owner repo : String) : Except SourceError RepositoryRef := do
  validateSegment owner
  validateSegment repo
  return ⟨owner, repo⟩

/-- A repository by its full name. -/
def repositoryRef (value : String) : Except SourceError RepositoryRef :=
  match Text.splitOnce '/' value.toList with
  | (_, none) => .error (invalidQuery "GitHub native id must name owner/repo")
  | (owner, some repo) => namedRepository (String.ofList owner) (String.ofList repo)

/-- The number of an object, which is not zero. -/
def parseNumber (value : String) : Except SourceError ℕ :=
  match parseU64 value with
  | none => .error (invalidQuery "GitHub target number is invalid")
  | some 0 => .error (invalidQuery "GitHub target number is invalid")
  | some number => .ok number

/-- The native identifiers `owner/repo`, `owner/repo#number` and
`owner/repo/discussions/number`. -/
def parseNative (value : String) : Except SourceError GitHubTarget :=
  match Text.splitOnce '#' value.toList.reverse with
  | (number, some name) => do
    let named ← repositoryRef (String.ofList name.reverse)
    return .issue named (← parseNumber (String.ofList number.reverse)) none
  | (_, none) =>
    match Text.split '/' value with
    | [owner, repo] => do return .repository (← namedRepository owner repo)
    | [owner, repo, "discussions", number] => do
      return .discussion (← namedRepository owner repo) (← parseNumber number)
    | _ => .error (invalidQuery ("GitHub native id must be owner/repo, owner/repo#number, or " ++
        "owner/repo/discussions/number"))

variable [UrlLibrary]

/-- The object at an address. -/
def parseUrl (value : String) : Except SourceError GitHubTarget :=
  match UrlLibrary.parse value with
  | .error message => .error (protocol message)
  | .ok url =>
    if UrlLibrary.domain url ≠ some "github.com" then
      .error (error .unsupported "target is not a github.com URL")
    else
      match (UrlLibrary.pathSegments url).getD [] with
      | [owner, repo] => do return .repository (← namedRepository owner repo)
      | [owner, repo, "issues", number] => do
        return .issue (← namedRepository owner repo) (← parseNumber number) (some false)
      | [owner, repo, "pull", number] => do
        return .issue (← namedRepository owner repo) (← parseNumber number) (some true)
      | [owner, repo, "discussions", number] => do
        return .discussion (← namedRepository owner repo) (← parseNumber number)
      | _ => .error (error .unsupported
          "target URL is not a GitHub repository, issue, pull request, or discussion")

/-- The target must be one of the source. -/
def ensureSource (source : SourceId) : Except SourceError Unit :=
  if source = sourceId then .ok ()
  else .error (invalidQuery "target source does not match github")

/-- What a target addresses. -/
def fromTarget : Target → Except SourceError GitHubTarget
  | .record record => do
    ensureSource record.source
    parseUrl record.url
  | .url source address => do
    ensureSource source
    parseUrl address
  | .native source id => do
    ensureSource source
    parseNative id

end GitHubTarget

/-! ## Queries -/

namespace GitHub

/-- The most records a search returns. -/
def maxLimit : ℕ := 50

/-- How many records a search returns when it is not told. -/
def defaultLimit : ℕ := 10

/-- The class of objects a search returns. -/
inductive SearchKind where
  | issues
  | repositories
  | discussions
deriving DecidableEq

/-- A search returns no more records than the source allows. -/
def ensureLimit (limit : Option ℕ) : Except SourceError Unit :=
  if maxLimit < limit.getD defaultLimit then
    .error (invalidQuery "GitHub source supports at most 50 results per search")
  else .ok ()

/-- The words of a text. -/
def splitWhitespace (value : String) : List String :=
  ((value.toList.splitOnP isWhitespace).filter (· ≠ [])).map String.ofList

/-- The class that a term selects. -/
def selectedKind (term : String) : Option SearchKind :=
  match Text.stripPrefix "type:" term with
  | some "repo" | some "repository" | some "repositories" => some .repositories
  | some "discussion" | some "discussions" => some .discussions
  | _ => none

/-- The day of a timestamp. -/
def date (value : String) : String := String.ofList (Text.splitOnce 'T' value.toList).1

/-- The terms for the bounds of a query. -/
def dateBounds (query : Query) : List String :=
  (query.since.map fun since => "created:>=" ++ date since).toList ++
    (query.until.map fun «until» => "created:<=" ++ date «until»).toList

/-- The class of objects and the text of a search. -/
def githubSearch (query : Query) : SearchKind × String :=
  let terms := splitWhitespace query.text
  ((terms.filterMap selectedKind).getLast?.getD .issues,
    String.intercalate " " (terms.filter (fun term => (selectedKind term).isNone) ++
      dateBounds query))

/-! ## Requests of discussions -/

/-- Where discussions are asked for. -/
def graphqlUrl : String := "https://api.github.com/graphql"

/-- The fields of a discussion. -/
def discussionFields : String :=
  "id number title url createdAt updatedAt bodyText author \x7b login \x7d category \x7b name \x7d " ++
    "comments \x7b totalCount \x7d repository \x7b nameWithOwner \x7d"

/-- Searches discussions. -/
def searchDiscussions (text : String) (limit : ℕ) : Json :=
  .obj [("query", .str ("query($q: String!, $n: Int!) \x7b search(query: $q, type: DISCUSSION, " ++
      "first: $n) \x7b nodes \x7b ... on Discussion \x7b " ++ discussionFields ++
      " \x7d \x7d \x7d \x7d")),
    ("variables", .obj [("q", .str text), ("n", .int limit)])]

/-- Fetches a discussion. -/
def fetchDiscussion (repository : RepositoryRef) (number : ℕ) : Json :=
  .obj [("query", .str ("query($owner: String!, $name: String!, $number: Int!) \x7b " ++
      "repository(owner: $owner, name: $name) \x7b discussion(number: $number) \x7b " ++
      discussionFields ++ " \x7d \x7d \x7d")),
    ("variables", .obj [("owner", .str repository.owner), ("name", .str repository.repo),
      ("number", .int number)])]

/-- Lists the discussions of a repository. -/
def repositoryDiscussions (repository : RepositoryRef) (limit : ℕ) : Json :=
  .obj [("query", .str ("query($owner: String!, $name: String!, $n: Int!) \x7b " ++
      "repository(owner: $owner, name: $name) \x7b discussions(first: $n, orderBy: " ++
      "\x7bfield: UPDATED_AT, direction: DESC\x7d) \x7b nodes \x7b " ++ discussionFields ++
      " \x7d \x7d \x7d \x7d")),
    ("variables", .obj [("owner", .str repository.owner), ("name", .str repository.repo),
      ("n", .int limit)])]

/-- Lists the comments on a discussion. -/
def discussionComments (repository : RepositoryRef) (number limit : ℕ) : Json :=
  .obj [("query", .str ("query($owner: String!, $name: String!, $number: Int!, $n: Int!) \x7b " ++
      "repository(owner: $owner, name: $name) \x7b discussion(number: $number) \x7b " ++
      "comments(first: $n) \x7b nodes \x7b id url bodyText createdAt updatedAt author " ++
      "\x7b login \x7d \x7d \x7d \x7d \x7d \x7d")),
    ("variables", .obj [("owner", .str repository.owner), ("name", .str repository.repo),
      ("number", .int number), ("n", .int limit)])]

/-! ## Answers -/

/-- How long the service asks to wait. -/
def retryAfter (response : HttpResponse) : Option ℕ := response.retryAfter.bind parseU64

/-- A body is read only when the status is one of success. -/
def checkedBody [UpstreamLibrary] (response : HttpResponse) : Except SourceError (Option Json) :=
  if response.isSuccess then .ok response.json
  else if response.status = 401 then .error (error .authentication "GitHub authentication failed")
  else if response.status = 403 ∨ response.status = 429 then
    .error { error .rateLimit "GitHub request was rate limited" with
      retryAfterSeconds := retryAfter response }
  else if response.status = 404 then .error (error .notFound "GitHub target was not found")
  else .error (error .upstream
    ("GitHub returned HTTP " ++ UpstreamLibrary.statusText response.status))

/-- The message of the first declared error. -/
def firstError (envelope : Json) : Option String := do
  let errors ← (← envelope.get? "errors").asArray?
  let first ← errors.head?
  return ((first.get? "message").bind Json.asStr?).getD "GitHub GraphQL request failed"

/-- The class of a declared error. -/
def graphqlErrorClass (message : String) : ErrorClass :=
  let lowered := String.ofList (message.toList.map Char.toLower)
  if Text.contains "could not resolve" lowered || Text.contains "not exist" lowered then .notFound
  else if Text.contains "rate limit" lowered then .rateLimit
  else if Text.contains "credential" lowered || Text.contains "permission" lowered then
    .authentication
  else .upstream

/-- A declared error. -/
def graphqlError (message : String) : SourceError :=
  error (graphqlErrorClass message) ("GitHub GraphQL: " ++ message)

section

variable [UpstreamLibrary]

/-- The data of an answer about discussions; declared errors come first. -/
def payload (body : Option Json) : Except SourceError Json :=
  match body with
  | none => .error (protocol (UpstreamLibrary.decodeError none))
  | some envelope =>
    match firstError envelope with
    | some message => .error (graphqlError message)
    | none =>
      match envelope.get? "data" with
      | some data => .ok data
      | none => .error (protocol "GitHub GraphQL response has no data")

/-- Reads a value. -/
def decode {α : Type} (read : Json → Option α) (value : Option Json) : Except SourceError α :=
  match value.bind read with
  | some a => .ok a
  | none => .error (protocol (UpstreamLibrary.decodeError value))

/-- Reads the nodes at a path of the data. -/
def nodes {α : Type} (read : Json → Option α) (data : Json) (path : List String) :
    Except SourceError (List α) :=
  match data.pointer path with
  | none => .error (protocol ("GitHub GraphQL response is missing " ++
      String.join (path.map ("/" ++ ·))))
  | some value => decode (Json.items read) (some value)

/-- Reads the node at a path of the data. -/
def node {α : Type} (read : Json → Option α) (data : Json) (path : List String) :
    Except SourceError α :=
  match data.pointer path with
  | none | some .null => .error (error .notFound "GitHub discussion was not found")
  | some value => decode read (some value)

end

/-- A rate limit of an answer is noted. -/
def observeError {α : Type} (operation : OperationKind) (error : SourceError) (next : Program α) :
    Program α :=
  if error.errorClass = .rateLimit then
    .note operation (error.retryAfterSeconds.getD 60) next
  else next

/-- Sends a request that the library accepts, and reads the body of the answer. -/
def exchange [UpstreamLibrary] (operation : OperationKind) (request : HttpRequest) :
    Program (Except SourceError (Option Json)) :=
  match UpstreamLibrary.requestError request with
  | some message => .done (.error (protocol message))
  | none => .send request fun
    | .error error => .done (.error error)
    | .ok response =>
      match checkedBody response with
      | .ok body => .done (.ok body)
      | .error error => observeError operation error (.done (.error error))

end GitHub

/-! ## Calls -/

/-- The source. -/
structure GitHubSource where
  token : Option String

namespace GitHubSource

variable [UpstreamLibrary] (source : GitHubSource)

/-- The headers of every request. -/
def headers : List (String × String) :=
  [("accept", "application/vnd.github+json"), ("content-type", "application/json"),
    ("user-agent", "comsat"), ("x-github-api-version", "2022-11-28")] ++
    (source.token.map fun token => ("authorization", "Bearer " ++ token)).toList

/-- One request to the REST interface. -/
def rest {α : Type} (read : Json → Option α) (operation : OperationKind) (url : String) :
    Program (Except SourceError α) :=
  (exchange operation ⟨"GET", url, source.headers, none⟩).andThen fun body =>
    .done (decode read body)

/-- One request to the GraphQL interface, which needs a token. -/
def graphql (operation : OperationKind) (request : Json) : Program (Except SourceError Json) :=
  if source.token.isNone then
    .done (.error (error .authentication
      "GitHub Discussions require COMSAT_GITHUB_TOKEN or GITHUB_TOKEN"))
  else
    (exchange operation ⟨"POST", graphqlUrl, source.headers, some request⟩).andThen fun body =>
      .done (payload body)

/-- A call does not begin while the operation cools down. -/
def whenReady {α : Type} (operation : OperationKind) (next : Program (Except SourceError α)) :
    Program (Except SourceError α) :=
  .check operation fun
    | none => next
    | some remaining => .done (.error ⟨sourceId, .rateLimit,
        "GitHub " ++ operation.asStr ++ " is cooling down after a rate limit", some remaining⟩)

/-! ### Addresses -/

/-- The address of a repository. -/
def repositoryUrl (repository : RepositoryRef) : String :=
  "https://api.github.com/repos/" ++ repository.encodedOwner ++ "/" ++ repository.encodedRepo

/-- The address of an issue. -/
def issueUrl (repository : RepositoryRef) (number : ℕ) : String :=
  repositoryUrl repository ++ "/issues/" ++ toString number

/-- The address of a pull request. -/
def pullUrl (repository : RepositoryRef) (number : ℕ) : String :=
  repositoryUrl repository ++ "/pulls/" ++ toString number

/-- The address of a search. -/
def searchUrl (resource text : String) (limit : ℕ) : String :=
  "https://api.github.com/search/" ++ resource ++ "?q=" ++ percentEncode text ++ "&per_page=" ++
    toString limit ++ "&sort=updated&order=desc"

/-! ### Search -/

/-- The repository that a discussion names. -/
def repositoryOf (discussion : Discussion) : RepositoryRef :=
  match Text.splitOnce '/' (discussion.repository.getD "").toList with
  | (owner, some repo) => ⟨String.ofList owner, String.ofList repo⟩
  | (_, none) => ⟨"", ""⟩

/-- Searches issues. -/
def searchIssues (text : String) (limit : ℕ) : Program (Except SourceError (List Record)) :=
  (source.rest (SearchResponse.fromValue Issue.fromValue) .search
    (searchUrl "issues" text limit)).andThen fun items => .done (items.mapM GitHub.issue)

/-- Searches repositories. -/
def searchRepositories (text : String) (limit : ℕ) : Program (Except SourceError (List Record)) :=
  (source.rest (SearchResponse.fromValue Repository.fromValue) .search
    (searchUrl "repositories" text limit)).andThen fun items =>
      .done (items.mapM GitHub.repository)

/-- Searches discussions. -/
def searchDiscussions (text : String) (limit : ℕ) : Program (Except SourceError (List Record)) :=
  (source.graphql .search (GitHub.searchDiscussions text limit)).andThen fun data => .done do
    let discussions ← nodes Discussion.fromValue data ["search", "nodes"]
    discussions.mapM fun discussion => discussionRecord discussion (repositoryOf discussion)

/-- A search. -/
def searchRecords (query : Query) : Program (Except SourceError (List Record)) :=
  match ensureLimit query.limit with
  | .error error => .done (.error error)
  | .ok () =>
    whenReady .search
      (let limit := query.limit.getD defaultLimit
      match githubSearch query with
      | (.issues, text) => source.searchIssues text limit
      | (.repositories, text) => source.searchRepositories text limit
      | (.discussions, text) => source.searchDiscussions text limit)

/-! ### Fetch -/

variable [UrlLibrary]

/-- A fetch. -/
def fetchRecord (target : Target) : Program (Except SourceError Record) :=
  whenReady .fetch
    (match GitHubTarget.fromTarget target with
    | .error error => .done (.error error)
    | .ok (.repository repository) =>
      (source.rest Repository.fromValue .fetch (repositoryUrl repository)).andThen fun value =>
        .done (GitHub.repository value)
    | .ok (.issue repository number _) =>
      (source.rest Issue.fromValue .fetch (issueUrl repository number)).andThen fun value =>
        .done (GitHub.issue value)
    | .ok (.discussion repository number) =>
      (source.graphql .fetch (fetchDiscussion repository number)).andThen fun data => .done do
        let discussion ← node Discussion.fromValue data ["repository", "discussion"]
        discussionRecord discussion repository)

/-! ### Follow -/

/-- Whether an issue is a pull request. -/
def isPullRequest (repository : RepositoryRef) (number : ℕ) : Program (Except SourceError Bool) :=
  (source.rest Issue.fromValue .follow (issueUrl repository number)).andThen fun issue =>
    .done (.ok issue.pullRequest.isSome)

/-- The comments on an issue. -/
def issueComments (repository : RepositoryRef) (number : ℕ) :
    Program (Except SourceError (List Record)) :=
  (source.rest (Json.items IssueComment.fromValue) .follow
    (issueUrl repository number ++ "/comments?per_page=" ++ toString maxLimit)).andThen
      fun comments => .done (comments.mapM fun comment => issueComment comment repository number)

/-- The reviews of a pull request. -/
def reviews (repository : RepositoryRef) (number : ℕ) : Program (Except SourceError (List Record)) :=
  (source.rest (Json.items Review.fromValue) .follow
    (pullUrl repository number ++ "/reviews?per_page=" ++ toString maxLimit)).andThen
      fun values => .done (values.mapM fun value => review value repository number)

/-- The comments of the reviews of a pull request. -/
def reviewComments (repository : RepositoryRef) (number : ℕ) :
    Program (Except SourceError (List Record)) :=
  (source.rest (Json.items ReviewComment.fromValue) .follow
    (pullUrl repository number ++ "/comments?per_page=" ++ toString maxLimit)).andThen
      fun comments => .done (comments.mapM fun comment => reviewComment comment repository number)

/-- The discussion of an issue: its comments, and the reviews of a pull request. -/
def issueDiscussion (repository : RepositoryRef) (number : ℕ) (pullRequest : Option Bool) :
    Program (Except SourceError (List Record)) :=
  (match pullRequest with
    | some known => Program.done (Except.ok known)
    | none => source.isPullRequest repository number).andThen fun pullRequest =>
  (source.issueComments repository number).andThen fun comments =>
    if pullRequest then
      (source.reviews repository number).andThen fun reviews =>
      (source.reviewComments repository number).andThen fun reviewComments =>
        .done (.ok (comments ++ reviews ++ reviewComments))
    else .done (.ok comments)

/-- The discussions of a repository. -/
def repositoryDiscussions (repository : RepositoryRef) :
    Program (Except SourceError (List Record)) :=
  (source.graphql .follow (GitHub.repositoryDiscussions repository maxLimit)).andThen fun data =>
    .done do
      let discussions ← nodes Discussion.fromValue data ["repository", "discussions", "nodes"]
      discussions.mapM fun discussion => discussionRecord discussion repository

/-- The comments on a discussion. -/
def discussionComments (repository : RepositoryRef) (number : ℕ) :
    Program (Except SourceError (List Record)) :=
  (source.graphql .follow (GitHub.discussionComments repository number maxLimit)).andThen
    fun data => .done do
      let comments ← nodes DiscussionComment.fromValue data
        ["repository", "discussion", "comments", "nodes"]
      comments.mapM fun comment => commentRecord comment repository number

/-- A follow. -/
def followRecords (target : Target) : Program (Except SourceError (List Record)) :=
  whenReady .follow
    (match GitHubTarget.fromTarget target with
    | .error error => .done (.error error)
    | .ok (.repository repository) => source.repositoryDiscussions repository
    | .ok (.issue repository number pullRequest) =>
      source.issueDiscussion repository number pullRequest
    | .ok (.discussion repository number) => source.discussionComments repository number)

end GitHubSource

end Comsat
