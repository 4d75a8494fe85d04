import Comsat.Source.Http
import Comsat.Source.Url

set_option relaxedAutoImplicit false
set_option autoImplicit false

/-!
# The web source

Search results of a search service, and pages.

## Main definitions

* `Web.validateFetchUrl` — which pages may be fetched.
* `Web.utf8Lossy`, `Web.htmlTitle` — the text and the title of a page.
* `Web.normalizeResult`, `Web.pageRecord` — the records of search results and pages.
* `WebSource.searchRecords`, `WebSource.fetchRecord` — the calls.

## Design

* Positions within a page are kept as what is left of its text.
-/

namespace Comsat

namespace Web

/-! ## Errors -/

/-- The identifier of the source. -/
def sourceId : SourceId := ⟨"web", SourceId.isValid_web⟩

/-- An error of the source. -/
def error (errorClass : ErrorClass) (message : String) : SourceError :=
  ⟨sourceId, errorClass, message, none⟩

/-- An answer or a request that cannot be read. -/
def protocol (message : String) : SourceError := error .protocol message

/-- A target that cannot be asked for. -/
def invalidQuery (message : String) : SourceError := error .invalidQuery message

/-! ## Pages that may be fetched -/

/-- Addresses of 32 bits that are not public: private, loopback, link-local, broadcast,
documentation and unspecified ones. -/
def isRejectedIpv4 (address : ℕ) : Bool :=
  let first := address / 2 ^ 24
  let second := address / 2 ^ 16 % 256
  let third := address / 2 ^ 8 % 256
  (first = 10 || (first = 172 && 16 ≤ second && second ≤ 31) || (first = 192 && second = 168)) ||
    first = 127 || (first = 169 && second = 254) || address = 2 ^ 32 - 1 ||
    ((first = 192 && second = 0 && third = 2) || (first = 198 && second = 51 && third = 100) ||
      (first = 203 && second = 0 && third = 113)) ||
    address = 0

/-- Addresses of 128 bits that are not public: those that stand for rejected addresses of 32 bits,
and loopback, unspecified, unique local and link-local ones. -/
def isRejectedIpv6 (address : ℕ) : Bool :=
  if address / 2 ^ 32 = 0xFFFF then isRejectedIpv4 (address % 2 ^ 32)
  else
    address = 1 || address = 0 || address / 2 ^ 121 = 0x7E || address / 2 ^ 118 = 0x3FA

/-- Whether a domain is a local one. -/
def isLocalDomain (name : String) : Bool :=
  String.ofList (name.toList.map Char.toLower) = "localhost" ||
    ".localhost".toList.isSuffixOf name.toList

/-- The host of a page must be public. -/
def validateHost : UrlHost → Except SourceError Unit
  | .domain name =>
    if isLocalDomain name then .error (error .authorization "web fetch rejects local targets")
    else .ok ()
  | .ipv4 address =>
    if isRejectedIpv4 address then
      .error (error .authorization "web fetch rejects non-public IP targets")
    else .ok ()
  | .ipv6 address =>
    if isRejectedIpv6 address then
      .error (error .authorization "web fetch rejects non-public IP targets")
    else .ok ()

/-- The target must be one of the source. -/
def ensureSource (source : SourceId) : Except SourceError Unit :=
  if source = sourceId then .ok ()
  else .error (invalidQuery "target source does not match web")

section Urls

variable [UrlLibrary]

/-- A page that may be fetched. -/
def validateFetchUrl (url : UrlLibrary.Url) : Except SourceError Unit :=
  if UrlLibrary.username url ≠ "" ∨ (UrlLibrary.password url).isSome then
    .error (invalidQuery "web fetch URL must not contain credentials")
  else if UrlLibrary.scheme url ≠ "http" ∧ UrlLibrary.scheme url ≠ "https" then
    .error (error .unsupported "web fetch only supports http and https")
  else
    match UrlLibrary.host url with
    | none => .error (invalidQuery "web fetch URL has no host")
    | some host => validateHost host

/-- Reads a URL. -/
def parseUrl (value : String) : Except SourceError UrlLibrary.Url :=
  match UrlLibrary.parse value with
  | .ok url => .ok url
  | .error message => .error (protocol message)

/-- The URL of a target. -/
def targetUrl : Target → Except SourceError UrlLibrary.Url
  | .record record => do
    ensureSource record.source
    parseUrl record.url
  | .url source address => do
    ensureSource source
    parseUrl address
  | .native source id => do
    ensureSource source
    match UrlLibrary.parse id with
    | .ok url => .ok url
    | .error _ => .error (invalidQuery "web native id must be an absolute URL")

/-- The text of a URL without its fragment. -/
def canonicalUrl (url : UrlLibrary.Url) : String :=
  UrlLibrary.asStr (UrlLibrary.withoutFragment url)

end Urls

/-! ## Texts of pages -/

/-- A byte that continues a character, within some bounds. -/
def continues (low high : ℕ) (byte : UInt8) : Bool := low ≤ byte.toNat && byte.toNat ≤ high

/-- How the bytes of a character go on after its first one: the bounds of the next byte, how many
bytes follow, and what the first byte contributes. -/
def utf8Lead (byte : UInt8) : Option (ℕ × ℕ × ℕ × ℕ) :=
  let n := byte.toNat
  if 0xC2 ≤ n ∧ n ≤ 0xDF then some (0x80, 0xBF, 1, n - 0xC0)
  else if n = 0xE0 then some (0xA0, 0xBF, 2, 0)
  else if n = 0xED then some (0x80, 0x9F, 2, 0xD)
  else if 0xE1 ≤ n ∧ n ≤ 0xEF then some (0x80, 0xBF, 2, n - 0xE0)
  else if n = 0xF0 then some (0x90, 0xBF, 3, 0)
  else if 0xF1 ≤ n ∧ n ≤ 0xF3 then some (0x80, 0xBF, 3, n - 0xF0)
  else if n = 0xF4 then some (0x80, 0x8F, 3, 4)
  else none

/-- Reads the rest of a character: its number, or that the bytes break off; and the bytes after
it. -/
def utf8Rest (low high : ℕ) : ℕ → ℕ → List UInt8 → Option ℕ × List UInt8
  | 0, value, bytes => (some value, bytes)
  | _ + 1, _, [] => (none, [])
  | count + 1, value, byte :: bytes =>
    if continues low high byte then
      utf8Rest 0x80 0xBF count (value * 64 + byte.toNat % 64) bytes
    else (none, byte :: bytes)

/-- The characters of some bytes; what is not one becomes a replacement character. The first
number bounds the number of characters. -/
def utf8Chars : ℕ → List UInt8 → List Char
  | 0, _ => []
  | _ + 1, [] => []
  | fuel + 1, byte :: bytes =>
    if byte.toNat < 0x80 then Char.ofNat byte.toNat :: utf8Chars fuel bytes
    else
      match utf8Lead byte with
      | none => Char.ofNat 0xFFFD :: utf8Chars fuel bytes
      | some (low, high, count, value) =>
        match utf8Rest low high count value bytes with
        | (some number, rest) => Char.ofNat number :: utf8Chars fuel rest
        | (none, rest) => Char.ofNat 0xFFFD :: utf8Chars fuel rest

/-- The text of some bytes. -/
def utf8Lossy (bytes : List UInt8) : String := String.ofList (utf8Chars bytes.length bytes)

example : utf8Lossy [0x61, 0xC3, 0xA9, 0xE2, 0x82, 0x62, 0xFF] = "a\u00e9\ufffdb\ufffd" := by decide

/-- What stands before a part of a text without regard to case, and what follows it. -/
def findIgnoringCase (part : List Char) : List Char → Option (List Char × List Char)
  | [] => if part = [] then some ([], []) else none
  | c :: cs =>
    if part.isPrefixOf ((c :: cs).map Char.toLower) then some ([], (c :: cs).drop part.length)
    else (findIgnoringCase part cs).map fun found => (c :: found.1, found.2)

/-- Replaces a part of a text wherever it stands. -/
def replaceAll (part replacement : List Char) : ℕ → List Char → List Char
  | 0, value => value
  | _ + 1, [] => []
  | fuel + 1, c :: cs =>
    if part.isPrefixOf (c :: cs) then
      replacement ++ replaceAll part replacement fuel ((c :: cs).drop part.length)
    else c :: replaceAll part replacement fuel cs

/-- The named references of a title. -/
def entities : List (String × String) :=
  [("\x26lt;", "<"), ("\x26gt;", ">"), ("\x26quot;", "\""), ("\x26#39;", "'"), ("\x26apos;", "'"),
    ("\x26nbsp;", " "), ("\x26amp;", "\x26")]

/-- Replaces the named references. -/
def decodeEntities (value : List Char) : List Char :=
  entities.foldl (fun text entity =>
    replaceAll entity.1.toList entity.2.toList text.length text) value

/-- Without white space at both ends. -/
def trim (value : List Char) : List Char :=
  ((value.dropWhile isWhitespace).reverse.dropWhile isWhitespace).reverse

/-- The title of a page, if it has one. -/
def htmlTitle (body : String) : Option String := do
  let (_, tag) ← findIgnoringCase "<title".toList body.toList
  let (_, content) ← findIgnoringCase ">".toList tag
  let (title, _) ← findIgnoringCase "</title>".toList content
  let title := decodeEntities (trim title)
  if title = [] then none else some (String.ofList title)

/-! ## Records -/

/-- A search result. -/
structure BraveResult where
  url : String
  title : Option String
  description : Option String
  age : Option String
  language : Option String
  familyFriendly : Option Bool

/-- Reads a search result. -/
def BraveResult.fromValue (value : Json) : Option BraveResult := do
  let [url, title, description, age, language, familyFriendly] ←
    value.fields ["url", "title", "description", "age", "language", "family_friendly"] | none
  return { url := ← Json.required Json.asStr? url
           title := ← Json.optional Json.asStr? title
           description := ← Json.optional Json.asStr? description
           age := ← Json.optional Json.asStr? age
           language := ← Json.optional Json.asStr? language
           familyFriendly := ← Json.optional Json.asBool? familyFriendly }

/-- Reads the results of a search. -/
def webResults (value : Json) : Option (List BraveResult) := do
  let [results] ← value.fields ["results"] | none
  Json.required (Json.items BraveResult.fromValue) results

/-- Reads the answer to a search, which may have no results. -/
def braveResponse (value : Json) : Option (List BraveResult) := do
  let [web] ← value.fields ["web"] | none
  return (← Json.optional webResults web).getD []

section Records

variable [UpstreamLibrary] [UrlLibrary]

/-- Reads a record that the source has put together. -/
def record (value : Json) : Except SourceError Record :=
  match Record.fromValue value with
  | some record => .ok record
  | none => .error (protocol (UpstreamLibrary.decodeError (some value)))

/-- The record of a search result. -/
def normalizeResult (result : BraveResult) : Except SourceError Record := do
  let url ← parseUrl result.url
  let createdAt := result.age.filter fun age => (UpstreamLibrary.toUnix age).isOk
  record (.obj [("id", .str ("web:" ++ canonicalUrl url)), ("source", .str "web"),
    ("kind", .str "search-result"), ("url", .str (canonicalUrl url)),
    ("title", .optStr result.title), ("text", .optStr result.description), ("author", .null),
    ("created_at", .optStr createdAt), ("updated_at", .null),
    ("metadata", .obj [("provider", .str "brave"), ("provider_age", .optStr result.age),
      ("language", .optStr result.language),
      ("family_friendly", .ofOption Json.bool result.familyFriendly)])])

/-- The most bytes of a page that are read. -/
def maxFetchBytes : ℕ := 256000

/-- The record of a page. -/
def pageRecord (url : UrlLibrary.Url) (body : List UInt8) : Except SourceError Record :=
  let text := utf8Lossy (body.take maxFetchBytes)
  record (.obj [("id", .str ("web:" ++ canonicalUrl url)), ("source", .str "web"),
    ("kind", .str "page"), ("url", .str (canonicalUrl url)), ("title", .optStr (htmlTitle text)),
    ("text", .str text), ("author", .null), ("created_at", .null), ("updated_at", .null),
    ("metadata", .obj [("fetched_bytes", .int (min body.length maxFetchBytes)),
      ("truncated", .bool (maxFetchBytes < body.length))])])

/-! ## Answers -/

/-- A response is read only when the status is one of success. -/
def checkedBody (response : HttpResponse) (name : String) : Except SourceError HttpResponse :=
  if response.isSuccess then .ok response
  else if response.status = 401 then .error (error .authentication (name ++ " authentication failed"))
  else if response.status = 403 then .error (error .authorization (name ++ " access denied"))
  else if response.status = 429 then
    .error { error .rateLimit (name ++ " was rate limited") with
      retryAfterSeconds := response.retryAfter.bind parseU64 }
  else if response.status = 404 then .error (error .notFound (name ++ " target was not found"))
  else .error (error .upstream
    (name ++ " returned HTTP " ++ UpstreamLibrary.statusText response.status))

/-- Sends a request that the library accepts, and checks the answer. -/
def exchange (request : HttpRequest) (name : String) :
    Program (Except SourceError HttpResponse) :=
  match UpstreamLibrary.requestError request with
  | some message => .done (.error (protocol message))
  | none => .send request fun
    | .error error => .done (.error error)
    | .ok response => .done (checkedBody response name)

/-- The request for a page. -/
def publicGet (url : UrlLibrary.Url) : HttpRequest where
  method := "GET"
  uri := UrlLibrary.asStr url
  headers := [("accept", "text/html,application/xhtml+xml,text/plain;q=0.9,*/*;q=0.1"),
    ("user-agent", "comsat")]
  body := none

end Records

/-! ## Queries -/

/-- The most records a search returns. -/
def maxLimit : ℕ := 20

/-- A search has no bounds in time. -/
def rejectTimeBounds (query : Query) : Except SourceError Unit :=
  if query.since.isSome ∨ query.until.isSome then
    .error (error .unsupported "web source does not support since or until bounds")
  else .ok ()

/-- A search returns no more records than the source allows. -/
def ensureLimit (limit : Option ℕ) : Except SourceError Unit :=
  if maxLimit < limit.getD 10 then
    .error (invalidQuery "web source supports at most 20 results per search")
  else .ok ()

end Web

/-! ## Calls -/

open Web

/-- The source. -/
structure WebSource where
  braveApiKey : String

namespace WebSource

variable [UpstreamLibrary] [UrlLibrary]

/-- A search. -/
def searchRecords (source : WebSource) (query : Query) :
    Program (Except SourceError (List Record)) :=
  match (do rejectTimeBounds query; ensureLimit query.limit : Except SourceError Unit) with
  | .error error => .done (.error error)
  | .ok () =>
    if source.braveApiKey = "" then
      .done (.error (error .authentication "web search API key is not configured"))
    else
      (exchange ⟨"GET", "https://api.search.brave.com/res/v1/web/search?q=" ++
          percentEncode query.text ++ "&count=" ++ toString (query.limit.getD 10),
        [("accept", "application/json"), ("user-agent", "comsat"),
          ("x-subscription-token", source.braveApiKey)], none⟩ "Brave web search").andThen
        fun response => .done
          (match response.json.bind braveResponse with
          | none => .error (protocol (UpstreamLibrary.decodeError response.json))
          | some results => results.mapM normalizeResult)

/-- A fetch. -/
def fetchRecord (target : Target) : Program (Except SourceError Record) :=
  match (do
    let url ← targetUrl target
    validateFetchUrl url
    return url : Except SourceError UrlLibrary.Url) with
  | .error error => .done (.error error)
  | .ok url =>
    (exchange (publicGet url) "web fetch").andThen fun response =>
      .done (pageRecord url response.body)

/-- A follow. -/
def followRecords (_target : Target) : Program (List (Except SourceError Record)) :=
  .done [.error (error .unsupported "web source does not advertise follow")]

end WebSource

end Comsat
