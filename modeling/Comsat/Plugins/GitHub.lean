import Comsat.Source.Http
import Comsat.Source.Url

set_option relaxedAutoImplicit false
set_option autoImplicit false

/-!
# The GitHub source

Issues, pull requests, repositories and discussions, with their comments and reviews.

## Main definitions

* `GitHub.Issue`, `GitHub.Repository`, … — the payloads of the service.
* `GitHub.issue`, `GitHub.repository`, … — the records made of them.
* `GitHubTarget.fromTarget` — what a target addresses.
* `GitHubSource.searchRecords`, `GitHubSource.fetchRecord`, `GitHubSource.followRecords` — the
  calls.

## Design

* A payload is read with the fields that the source declares; the service sends more.
-/

namespace Comsat

namespace GitHub

/-! ## Errors -/

/-- The identifier of the source. -/
def sourceId : SourceId := ⟨"github", SourceId.isValid_github⟩

/-- An error of the source. -/
def error (errorClass : ErrorClass) (message : String) : SourceError :=
  ⟨sourceId, errorClass, message, none⟩

/-- An answer or a request that cannot be read. -/
def protocol (message : String) : SourceError := error .protocol message

/-- A target that cannot be asked for. -/
def invalidQuery (message : String) : SourceError := error .invalidQuery message

/-! ## Repositories -/

/-- A repository by its name. -/
structure RepositoryRef where
  owner : String
  repo : String
deriving DecidableEq

namespace RepositoryRef

variable (repository : RepositoryRef)

/-- The owner in a path. -/
def encodedOwner : String := percentEncode repository.owner

/-- The repository in a path. -/
def encodedRepo : String := percentEncode repository.repo

/-- The full name. -/
def nameWithOwner : String := repository.owner ++ "/" ++ repository.repo

end RepositoryRef

/-! ## Payloads -/

/-- A user. -/
structure User where
  login : String

/-- Reads a user. -/
def User.fromValue (value : Json) : Option User := do
  let [login] ← value.fields ["login"] | none
  return ⟨← Json.required Json.asStr? login⟩

/-- An issue or a pull request. -/
structure Issue where
  id : ℕ
  nodeId : Option String
  htmlUrl : String
  title : String
  body : Option String
  user : Option User
  createdAt : Option String
  updatedAt : Option String
  number : ℕ
  state : Option String
  comments : Option ℕ
  repositoryUrl : Option String
  pullRequest : Option Json

/-- Reads an issue. -/
def Issue.fromValue (value : Json) : Option Issue := do
  let [id, nodeId, htmlUrl, title, body, user, createdAt, updatedAt, number, state, comments,
    repositoryUrl, pullRequest] ← value.fields ["id", "node_id", "html_url", "title", "body",
      "user", "created_at", "updated_at", "number", "state", "comments", "repository_url",
      "pull_request"] | none
  return { id := ← Json.required Json.asU64? id
           nodeId := ← Json.optional Json.asStr? nodeId
           htmlUrl := ← Json.required Json.asStr? htmlUrl
           title := ← Json.required Json.asStr? title
           body := ← Json.optional Json.asStr? body
           user := ← Json.optional User.fromValue user
           createdAt := ← Json.optional Json.asStr? createdAt
           updatedAt := ← Json.optional Json.asStr? updatedAt
           number := ← Json.required Json.asU64? number
           state := ← Json.optional Json.asStr? state
           comments := ← Json.optional Json.asU64? comments
           repositoryUrl := ← Json.optional Json.asStr? repositoryUrl
           pullRequest := ← Json.optional some pullRequest }

/-- A comment on an issue. -/
structure IssueComment where
  id : ℕ
  nodeId : Option String
  htmlUrl : String
  body : Option String
  user : Option User
  createdAt : Option String
  updatedAt : Option String
  reactions : Option Json

/-- Reads a comment. -/
def IssueComment.fromValue (value : Json) : Option IssueComment := do
  let [id, nodeId, htmlUrl, body, user, createdAt, updatedAt, reactions] ←
    value.fields ["id", "node_id", "html_url", "body", "user", "created_at", "updated_at",
      "reactions"] | none
  return { id := ← Json.required Json.asU64? id
           nodeId := ← Json.optional Json.asStr? nodeId
           htmlUrl := ← Json.required Json.asStr? htmlUrl
           body := ← Json.optional Json.asStr? body
           user := ← Json.optional User.fromValue user
           createdAt := ← Json.optional Json.asStr? createdAt
           updatedAt := ← Json.optional Json.asStr? updatedAt
           reactions := ← Json.optional some reactions }

/-- A repository. -/
structure Repository where
  id : ℕ
  nodeId : Option String
  htmlUrl : String
  fullName : String
  description : Option String
  owner : Option User
  createdAt : Option String
  updatedAt : Option String
  stargazersCount : Option ℕ
  forksCount : Option ℕ
  openIssuesCount : Option ℕ
  language : Option String
  defaultBranch : Option String
  topics : Option (List String)
  archived : Option Bool

/-- Reads a repository. -/
def Repository.fromValue (value : Json) : Option Repository := do
  let [id, nodeId, htmlUrl, fullName, description, owner, createdAt, updatedAt, stargazersCount,
    forksCount, openIssuesCount, language, defaultBranch, topics, archived] ←
    value.fields ["id", "node_id", "html_url", "full_name", "description", "owner", "created_at",
      "updated_at", "stargazers_count", "forks_count", "open_issues_count", "language",
      "default_branch", "topics", "archived"] | none
  return { id := ← Json.required Json.asU64? id
           nodeId := ← Json.optional Json.asStr? nodeId
           htmlUrl := ← Json.required Json.asStr? htmlUrl
           fullName := ← Json.required Json.asStr? fullName
           description := ← Json.optional Json.asStr? description
           owner := ← Json.optional User.fromValue owner
           createdAt := ← Json.optional Json.asStr? createdAt
           updatedAt := ← Json.optional Json.asStr? updatedAt
           stargazersCount := ← Json.optional Json.asU64? stargazersCount
           forksCount := ← Json.optional Json.asU64? forksCount
           openIssuesCount := ← Json.optional Json.asU64? openIssuesCount
           language := ← Json.optional Json.asStr? language
           defaultBranch := ← Json.optional Json.asStr? defaultBranch
           topics := ← Json.optional (Json.items Json.asStr?) topics
           archived := ← Json.optional Json.asBool? archived }

/-- A comment of a review of a pull request. -/
structure ReviewComment where
  id : ℕ
  nodeId : Option String
  htmlUrl : String
  body : Option String
  user : Option User
  createdAt : Option String
  updatedAt : Option String
  path : Option String
  line : Option ℕ
  inReplyToId : Option ℕ
  pullRequestReviewId : Option ℕ

/-- Reads a comment of a review. -/
def ReviewComment.fromValue (value : Json) : Option ReviewComment := do
  let [id, nodeId, htmlUrl, body, user, createdAt, updatedAt, path, line, inReplyToId,
    pullRequestReviewId] ← value.fields ["id", "node_id", "html_url", "body", "user", "created_at",
      "updated_at", "path", "line", "in_reply_to_id", "pull_request_review_id"] | none
  return { id := ← Json.required Json.asU64? id
           nodeId := ← Json.optional Json.asStr? nodeId
           htmlUrl := ← Json.required Json.asStr? htmlUrl
           body := ← Json.optional Json.asStr? body
           user := ← Json.optional User.fromValue user
           createdAt := ← Json.optional Json.asStr? createdAt
           updatedAt := ← Json.optional Json.asStr? updatedAt
           path := ← Json.optional Json.asStr? path
           line := ← Json.optional Json.asU64? line
           inReplyToId := ← Json.optional Json.asU64? inReplyToId
           pullRequestReviewId := ← Json.optional Json.asU64? pullRequestReviewId }

/-- A review of a pull request. -/
structure Review where
  id : ℕ
  nodeId : Option String
  htmlUrl : String
  body : Option String
  user : Option User
  state : Option String
  submittedAt : Option String

/-- Reads a review. -/
def Review.fromValue (value : Json) : Option Review := do
  let [id, nodeId, htmlUrl, body, user, state, submittedAt] ←
    value.fields ["id", "node_id", "html_url", "body", "user", "state", "submitted_at"] | none
  return { id := ← Json.required Json.asU64? id
           nodeId := ← Json.optional Json.asStr? nodeId
           htmlUrl := ← Json.required Json.asStr? htmlUrl
           body := ← Json.optional Json.asStr? body
           user := ← Json.optional User.fromValue user
           state := ← Json.optional Json.asStr? state
           submittedAt := ← Json.optional Json.asStr? submittedAt }

/-- Reads the items of a search response. -/
def SearchResponse.fromValue {α : Type} (read : Json → Option α) (value : Json) :
    Option (List α) := do
  let [items] ← value.fields ["items"] | none
  Json.required (Json.items read) items

/-- The category of a discussion. -/
def categoryName (value : Json) : Option String := do
  let [name] ← value.fields ["name"] | none
  Json.required Json.asStr? name

/-- How many comments a discussion has. -/
def totalCount (value : Json) : Option ℕ := do
  let [count] ← value.fields ["totalCount"] | none
  Json.required Json.asU64? count

/-- The repository of a discussion. -/
def repositoryName (value : Json) : Option String := do
  let [name] ← value.fields ["nameWithOwner"] | none
  Json.required Json.asStr? name

/-- A discussion. -/
structure Discussion where
  id : String
  number : ℕ
  title : String
  url : String
  createdAt : Option String
  updatedAt : Option String
  bodyText : Option String
  author : Option User
  category : Option String
  comments : Option ℕ
  repository : Option String

/-- Reads a discussion. -/
def Discussion.fromValue (value : Json) : Option Discussion := do
  let [id, number, title, url, createdAt, updatedAt, bodyText, author, category, comments,
    repository] ← value.fields ["id", "number", "title", "url", "createdAt", "updatedAt",
      "bodyText", "author", "category", "comments", "repository"] | none
  return { id := ← Json.required Json.asStr? id
           number := ← Json.required Json.asU64? number
           title := ← Json.required Json.asStr? title
           url := ← Json.required Json.asStr? url
           createdAt := ← Json.optional Json.asStr? createdAt
           updatedAt := ← Json.optional Json.asStr? updatedAt
           bodyText := ← Json.optional Json.asStr? bodyText
           author := ← Json.optional User.fromValue author
           category := ← Json.optional categoryName category
           comments := ← Json.optional totalCount comments
           repository := ← Json.optional repositoryName repository }

/-- A comment on a discussion. -/
structure DiscussionComment where
  id : String
  url : String
  createdAt : Option String
  updatedAt : Option String
  bodyText : Option String
  author : Option User

/-- Reads a comment on a discussion. -/
def DiscussionComment.fromValue (value : Json) : Option DiscussionComment := do
  let [id, url, createdAt, updatedAt, bodyText, author] ←
    value.fields ["id", "url", "createdAt", "updatedAt", "bodyText", "author"] | none
  return { id := ← Json.required Json.asStr? id
           url := ← Json.required Json.asStr? url
           createdAt := ← Json.optional Json.asStr? createdAt
           updatedAt := ← Json.optional Json.asStr? updatedAt
           bodyText := ← Json.optional Json.asStr? bodyText
           author := ← Json.optional User.fromValue author }

/-! ## Records -/

section Records

variable [UpstreamLibrary]

/-- Reads a record that the source has put together. -/
def record (value : Json) : Except SourceError Record :=
  match Record.fromValue value with
  | some record => .ok record
  | none => .error (protocol (UpstreamLibrary.decodeError (some value)))

/-- The identifier of a record: that of the node, or one made of the number of the object. -/
def recordId (kind : String) (id : ℕ) (nodeId : Option String) : String :=
  nodeId.getD ("github:" ++ kind ++ ":" ++ toString id)

/-- The record of an issue or a pull request. -/
def issue (issue : Issue) : Except SourceError Record :=
  let repository := issue.repositoryUrl.bind (Text.stripPrefix "https://api.github.com/repos/")
  record (.obj [("id", .str (recordId "issue" issue.id issue.nodeId)), ("source", .str "github"),
    ("kind", .str (if issue.pullRequest.isSome then "pull-request" else "issue")),
    ("url", .str issue.htmlUrl), ("title", .str issue.title), ("text", .optStr issue.body),
    ("author", .optStr (issue.user.map User.login)), ("created_at", .optStr issue.createdAt),
    ("updated_at", .optStr issue.updatedAt),
    ("metadata", .obj [("github_id", .int issue.id), ("node_id", .optStr issue.nodeId),
      ("repository", .optStr repository), ("number", .int issue.number),
      ("state", .optStr issue.state), ("comments", .optNat issue.comments)])])

/-- The record of a comment on an issue. -/
def issueComment (comment : IssueComment) (repository : RepositoryRef) (number : ℕ) :
    Except SourceError Record :=
  record (.obj [("id", .str (recordId "comment" comment.id comment.nodeId)),
    ("source", .str "github"), ("kind", .str "issue-comment"), ("url", .str comment.htmlUrl),
    ("title", .null), ("text", .optStr comment.body),
    ("author", .optStr (comment.user.map User.login)), ("created_at", .optStr comment.createdAt),
    ("updated_at", .optStr comment.updatedAt),
    ("metadata", .obj [("github_id", .int comment.id), ("node_id", .optStr comment.nodeId),
      ("repository", .str repository.nameWithOwner), ("number", .int number),
      ("reactions", .ofOption id comment.reactions)])])

/-- The record of a repository. -/
def repository (repository : Repository) : Except SourceError Record :=
  record (.obj [("id", .str (recordId "repository" repository.id repository.nodeId)),
    ("source", .str "github"), ("kind", .str "repository"), ("url", .str repository.htmlUrl),
    ("title", .str repository.fullName), ("text", .optStr repository.description),
    ("author", .optStr (repository.owner.map User.login)),
    ("created_at", .optStr repository.createdAt), ("updated_at", .optStr repository.updatedAt),
    ("metadata", .obj [("github_id", .int repository.id), ("node_id", .optStr repository.nodeId),
      ("repository", .str repository.fullName), ("stars", .optNat repository.stargazersCount),
      ("forks", .optNat repository.forksCount), ("open_issues", .optNat repository.openIssuesCount),
      ("language", .optStr repository.language),
      ("default_branch", .optStr repository.defaultBranch),
      ("topics", .ofOption (fun topics => .arr (topics.map Json.str)) repository.topics),
      ("archived", .ofOption Json.bool repository.archived)])])

/-- The record of a comment of a review. -/
def reviewComment (comment : ReviewComment) (repository : RepositoryRef) (number : ℕ) :
    Except SourceError Record :=
  record (.obj [("id", .str (recordId "review-comment" comment.id comment.nodeId)),
    ("source", .str "github"), ("kind", .str "review-comment"), ("url", .str comment.htmlUrl),
    ("title", .null), ("text", .optStr comment.body),
    ("author", .optStr (comment.user.map User.login)), ("created_at", .optStr comment.createdAt),
    ("updated_at", .optStr comment.updatedAt),
    ("metadata", .obj [("github_id", .int comment.id), ("node_id", .optStr comment.nodeId),
      ("repository", .str repository.nameWithOwner), ("number", .int number),
      ("path", .optStr comment.path), ("line", .optNat comment.line),
      ("in_reply_to", .optNat comment.inReplyToId),
      ("review_id", .optNat comment.pullRequestReviewId)])])

/-- The record of a review. -/
def review (review : Review) (repository : RepositoryRef) (number : ℕ) :
    Except SourceError Record :=
  record (.obj [("id", .str (recordId "review" review.id review.nodeId)),
    ("source", .str "github"), ("kind", .str "review"), ("url", .str review.htmlUrl),
    ("title", .optStr review.state), ("text", .optStr review.body),
    ("author", .optStr (review.user.map User.login)), ("created_at", .optStr review.submittedAt),
    ("updated_at", .optStr review.submittedAt),
    ("metadata", .obj [("github_id", .int review.id), ("node_id", .optStr review.nodeId),
      ("repository", .str repository.nameWithOwner), ("number", .int number),
      ("state", .optStr review.state)])])

/-- The record of a discussion. -/
def discussionRecord (discussion : Discussion) (repository : RepositoryRef) :
    Except SourceError Record :=
  let nameWithOwner := discussion.repository.getD repository.nameWithOwner
  record (.obj [("id", .str discussion.id), ("source", .str "github"), ("kind", .str "discussion"),
    ("url", .str discussion.url), ("title", .str discussion.title),
    ("text", .optStr discussion.bodyText),
    ("author", .optStr (discussion.author.map User.login)),
    ("created_at", .optStr discussion.createdAt), ("updated_at", .optStr discussion.updatedAt),
    ("metadata", .obj [("node_id", .str discussion.id), ("repository", .str nameWithOwner),
      ("number", .int discussion.number), ("category", .optStr discussion.category),
      ("comments", .optNat discussion.comments)])])

/-- The record of a comment on a discussion. -/
def commentRecord (comment : DiscussionComment) (repository : RepositoryRef) (number : ℕ) :
    Except SourceError Record :=
  record (.obj [("id", .str comment.id), ("source", .str "github"),
    ("kind", .str "discussion-comment"), ("url", .str comment.url), ("title", .null),
    ("text", .optStr comment.bodyText), ("author", .optStr (comment.author.map User.login)),
    ("created_at", .optStr comment.createdAt), ("updated_at", .optStr comment.updatedAt),
    ("metadata", .obj [("node_id", .str comment.id),
      ("repository", .str repository.nameWithOwner), ("number", .int number)])])

end Records

end GitHub

end Comsat
