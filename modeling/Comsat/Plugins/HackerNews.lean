import Comsat.Source.Http
import Comsat.Source.Url

set_option relaxedAutoImplicit false
set_option autoImplicit false

/-!
# The Hacker News source

Stories and comments. A search asks a search service, everything else the service that keeps the
items.

## Main definitions

* `HackerNews.AlgoliaHit`, `HackerNews.Item` — the payloads of the services.
* `HackerNews.normalizeHit`, `HackerNews.normalizeItem` — the records made of them.
* `HackerNews.targetId` — the item that a target addresses.
* `HackerNews.searchRecords`, `HackerNews.fetchItemRecord`, `HackerNews.followRecords` — the calls.
-/

namespace Comsat.HackerNews

/-! ## Errors -/

/-- The identifier of the source. -/
def sourceId : SourceId := ⟨"hacker-news", SourceId.isValid_hackerNews⟩

/-- An error of the source. -/
def error (errorClass : ErrorClass) (message : String) : SourceError :=
  ⟨sourceId, errorClass, message, none⟩

/-- An answer or a request that cannot be read. -/
def protocol (message : String) : SourceError := error .protocol message

/-- A target that cannot be asked for. -/
def invalidQuery (message : String) : SourceError := error .invalidQuery message

/-! ## Payloads -/

/-- A hit of a search. -/
structure AlgoliaHit where
  objectId : String
  title : Option String
  storyTitle : Option String
  url : Option String
  storyUrl : Option String
  author : Option String
  commentText : Option String
  storyText : Option String
  createdAt : Option String
  points : Option ℤ
  numComments : Option ℤ
  storyId : Option ℕ
  parentId : Option ℕ

/-- Reads a hit. -/
def AlgoliaHit.fromValue (value : Json) : Option AlgoliaHit := do
  let [objectId, title, storyTitle, url, storyUrl, author, commentText, storyText, createdAt, points,
    numComments, storyId, parentId] ← value.fields ["objectID", "title", "story_title", "url",
      "story_url", "author", "comment_text", "story_text", "created_at", "points", "num_comments",
      "story_id", "parent_id"] | none
  return { objectId := ← Json.required Json.asStr? objectId
           title := ← Json.optional Json.asStr? title
           storyTitle := ← Json.optional Json.asStr? storyTitle
           url := ← Json.optional Json.asStr? url
           storyUrl := ← Json.optional Json.asStr? storyUrl
           author := ← Json.optional Json.asStr? author
           commentText := ← Json.optional Json.asStr? commentText
           storyText := ← Json.optional Json.asStr? storyText
           createdAt := ← Json.optional Json.asStr? createdAt
           points := ← Json.optional Json.asI64? points
           numComments := ← Json.optional Json.asI64? numComments
           storyId := ← Json.optional Json.asU64? storyId
           parentId := ← Json.optional Json.asU64? parentId }

/-- Reads the hits of a search. -/
def hitsFromValue (value : Json) : Option (List AlgoliaHit) := do
  let [hits] ← value.fields ["hits"] | none
  Json.required (Json.items AlgoliaHit.fromValue) hits

/-- An item. -/
structure Item where
  id : ℕ
  kind : String
  by' : Option String
  time : Option ℕ
  title : Option String
  text : Option String
  url : Option String
  score : Option ℤ
  descendants : Option ℤ
  parent : Option ℕ
  kids : Option (List ℕ)

/-- Reads an item. -/
def Item.fromValue (value : Json) : Option Item := do
  let [id, kind, author, time, title, text, url, score, descendants, parent, kids] ←
    value.fields ["id", "type", "by", "time", "title", "text", "url", "score", "descendants",
      "parent", "kids"] | none
  return { id := ← Json.required Json.asU64? id
           kind := ← Json.required Json.asStr? kind
           by' := ← Json.optional Json.asStr? author
           time := ← Json.optional Json.asU64? time
           title := ← Json.optional Json.asStr? title
           text := ← Json.optional Json.asStr? text
           url := ← Json.optional Json.asStr? url
           score := ← Json.optional Json.asI64? score
           descendants := ← Json.optional Json.asI64? descendants
           parent := ← Json.optional Json.asU64? parent
           kids := ← Json.optional (Json.items Json.asU64?) kids }

/-! ## Records -/

section Records

variable [UpstreamLibrary]

/-- Reads a record that the source has put together. -/
def record (value : Json) : Except SourceError Record :=
  match Record.fromValue value with
  | some record => .ok record
  | none => .error (protocol (UpstreamLibrary.decodeError (some value)))

/-- An optional integer, or `null` when there is none. -/
def optInt : Option ℤ → Json := .ofOption Json.int

/-- The record of a hit. -/
def normalizeHit (hit : AlgoliaHit) : Except SourceError Record :=
  record (.obj [("id", .str ("hacker-news:" ++ hit.objectId)), ("source", .str "hacker-news"),
    ("kind", .str (if hit.commentText.isSome then "comment" else "story")),
    ("url", .str ("https://news.ycombinator.com/item?id=" ++ hit.objectId)),
    ("title", .optStr (hit.title.or hit.storyTitle)),
    ("text", .optStr (hit.commentText.or hit.storyText)), ("author", .optStr hit.author),
    ("created_at", .optStr hit.createdAt), ("updated_at", .null),
    ("metadata", .obj [("object_id", .str hit.objectId), ("story_id", .optNat hit.storyId),
      ("parent_id", .optNat hit.parentId), ("points", optInt hit.points),
      ("num_comments", optInt hit.numComments),
      ("outbound_url", .optStr (hit.url.or hit.storyUrl)),
      ("search_provider", .str "hn.algolia.com")])])

/-- The record of an item. -/
def normalizeItem (item : Item) : Except SourceError Record :=
  record (.obj [("id", .str ("hacker-news:" ++ toString item.id)), ("source", .str "hacker-news"),
    ("kind", .str item.kind),
    ("url", .str ("https://news.ycombinator.com/item?id=" ++ toString item.id)),
    ("title", .optStr item.title), ("text", .optStr item.text), ("author", .optStr item.by'),
    ("created_at", .optStr (item.time.bind UpstreamLibrary.ofUnix)), ("updated_at", .null),
    ("metadata", .obj [("story_id", .optNat (if item.kind = "story" then some item.id else none)),
      ("parent_id", .optNat item.parent), ("points", optInt item.score),
      ("descendants", optInt item.descendants), ("kid_count", .optNat (item.kids.map List.length)),
      ("outbound_url", .optStr item.url)])])

end Records

/-! ## Targets -/

/-- The target must be one of the source. -/
def ensureSource (source : SourceId) : Except SourceError Unit :=
  if source = sourceId then .ok ()
  else .error (invalidQuery "target source does not match hacker-news")

section Targets

variable [UrlLibrary]

/-- The item at a URL. -/
def idFromUrl (url : UrlLibrary.Url) : Option ℕ :=
  if UrlLibrary.domain url ≠ some "news.ycombinator.com" then none
  else ((UrlLibrary.queryPairs url).find? fun pair => pair.1 = "id").bind fun pair => parseU64 pair.2

/-- The item at an address. -/
def idAt (address : String) : Option ℕ :=
  match UrlLibrary.parse address with
  | .ok url => idFromUrl url
  | .error _ => none

/-- The item that a target addresses. -/
def targetId : Target → Except SourceError ℕ
  | .record record => do
    ensureSource record.source
    match ((Text.stripPrefix "hacker-news:" record.id.value).bind parseU64).or
        (idAt record.url) with
    | some id => .ok id
    | none => .error (invalidQuery "Hacker News record target does not contain an item id")
  | .url source address => do
    ensureSource source
    match idAt address with
    | some id => .ok id
    | none => .error (invalidQuery "Hacker News URL target must include item id")
  | .native source id => do
    ensureSource source
    match parseU64 id with
    | some id => .ok id
    | none => .error (invalidQuery "Hacker News native id must be a numeric item id")

end Targets

/-! ## Calls -/

section Calls

variable [UpstreamLibrary]

/-- A body is read only when the status is one of success. -/
def checkedBody (response : HttpResponse) : Except SourceError (Option Json) :=
  if response.isSuccess then .ok response.json
  else if response.status = 404 then .error (error .notFound "Hacker News item was not found")
  else .error (error .upstream
    ("Hacker News returned HTTP " ++ UpstreamLibrary.statusText response.status))

/-- Sends a request that the library accepts, and reads the body of the answer. -/
def exchange (url : String) : Program (Except SourceError (Option Json)) :=
  let request : HttpRequest := ⟨"GET", url, [("user-agent", "comsat")], none⟩
  match UpstreamLibrary.requestError request with
  | some message => .done (.error (protocol message))
  | none => .send request fun
    | .error error => .done (.error error)
    | .ok response => .done (checkedBody response)

/-- Reads a value. -/
def parseJson {α : Type} (read : Json → Option α) (value : Option Json) : Except SourceError α :=
  match value.bind read with
  | some a => .ok a
  | none => .error (protocol (UpstreamLibrary.decodeError value))

/-- Reads an item; an item that is not there is `null`. -/
def parseItem (body : Option Json) : Except SourceError Item :=
  match body with
  | some .null => .error (error .notFound "Hacker News item was not found")
  | body => parseJson Item.fromValue body

/-- The most records a search or a follow returns. -/
def maxLimit : ℕ := 50

/-- A search returns no more records than the source allows. -/
def ensureLimit (limit : Option ℕ) : Except SourceError Unit :=
  if maxLimit < limit.getD 10 then
    .error (invalidQuery "Hacker News source supports at most 50 results per search")
  else .ok ()

/-- The seconds of a timestamp. -/
def rfc3339ToUnix (value : String) : Except SourceError ℤ :=
  match UpstreamLibrary.toUnix value with
  | .ok seconds => .ok seconds
  | .error message => .error (protocol message)

/-- The bounds of a query in an address. -/
def algoliaFilters (query : Query) : Except SourceError String := do
  let since ← query.since.toList.mapM fun since => do
    pure ("created_at_i>=" ++ toString (← rfc3339ToUnix since))
  let «until» ← query.until.toList.mapM fun «until» => do
    pure ("created_at_i<=" ++ toString (← rfc3339ToUnix «until»))
  let filters := since ++ «until»
  if filters.isEmpty then return ""
  else return "&numericFilters=" ++ percentEncode (String.intercalate "," filters)

/-- A search. -/
def searchRecords (query : Query) : Program (Except SourceError (List Record)) :=
  match ensureLimit query.limit with
  | .error error => .done (.error error)
  | .ok () =>
    match algoliaFilters query with
    | .error error => .done (.error error)
    | .ok filters =>
      (exchange ("https://hn.algolia.com/api/v1/search?query=" ++ percentEncode query.text ++
        "&tags=" ++ percentEncode "(story,comment)" ++ "&hitsPerPage=" ++
        toString (query.limit.getD 10) ++ "&advancedSyntax=true" ++ filters)).andThen fun body =>
          .done do (← parseJson hitsFromValue body).mapM normalizeHit

/-- The address of an item. -/
def itemUrl (id : ℕ) : String :=
  "https://hacker-news.firebaseio.com/v0/item/" ++ toString id ++ ".json"

/-- Fetches an item. -/
def fetchItem (id : ℕ) : Program (Except SourceError Item) :=
  (exchange (itemUrl id)).andThen fun body => .done (parseItem body)

/-- Follows the first replies to an item. -/
def followItems : List ℕ → Program (List (Except SourceError Record))
  | [] => .done []
  | id :: ids =>
    (fetchItem id).bind fun item =>
      (followItems ids).bind fun records =>
        .done ((item.bind normalizeItem) :: records)

variable [UrlLibrary]

/-- A fetch. -/
def fetchItemRecord (target : Target) : Program (Except SourceError Record) :=
  match targetId target with
  | .error error => .done (.error error)
  | .ok id => (fetchItem id).andThen fun item => .done (normalizeItem item)

/-- A follow. -/
def followRecords (target : Target) : Program (List (Except SourceError Record)) :=
  match targetId target with
  | .error error => .done [.error error]
  | .ok id =>
    (fetchItem id).bind fun
      | .error error => .done [.error error]
      | .ok item => followItems ((item.kids.getD []).take maxLimit)

end Calls

end Comsat.HackerNews
