import Comsat.Types.Identity
import Comsat.Types.Json

set_option relaxedAutoImplicit false
set_option autoImplicit false

/-!
# Records and queries

The records that sources return and the queries they answer, with their validation.

## Main definitions

* `ExternalParsers` — the URL and timestamp parsers of the libraries the program uses.
* `Record`, `Record.validate` — a record and its checks.
* `Record.identity` — the source and the identifier of a record, which name it everywhere.
* `Query`, `Query.validate` — a query and its checks.
* `Target`, `Target.validate` — what a fetch asks for.

## Design

* URL and timestamp parsing belong to third-party libraries. They are a parameter of the model:
  nothing is assumed about them.
-/

namespace Comsat

/-! ## Parsers of the libraries -/

/-- The components of a parsed URL that the program reads. -/
structure ParsedUrl where
  scheme : String
  hostStr : Option String
  username : String
  password : Option String
deriving DecidableEq, Repr

/-- The parsers of the libraries that the program uses. -/
class ExternalParsers where
  parseUrl : String → Option ParsedUrl
  parseTimestamp : String → Option Int

/-- Parsers that know the addresses of one host and no timestamp, to evaluate definitions on
concrete inputs. -/
@[reducible] def ExternalParsers.ofHost (host : String) : ExternalParsers where
  parseUrl value :=
    if ("https://" ++ host ++ "/").toList.isPrefixOf value.toList then
      some ⟨"https", some host, "", none⟩
    else none
  parseTimestamp _ := none

variable [ExternalParsers]

/-- An absolute HTTP(S) URL without credentials. -/
def validateUrl (value : String) : Except ValidationError Unit :=
  match ExternalParsers.parseUrl value with
  | none => .error ⟨"invalid URL"⟩
  | some url =>
    if (url.scheme ≠ "http" ∧ url.scheme ≠ "https") ∨ url.hostStr = none ∨ url.username ≠ "" ∨
        url.password ≠ none then
      .error ⟨"URL must be absolute HTTP(S), without credentials"⟩
    else .ok ()

/-- The instant of an RFC 3339 timestamp. -/
def validateTimestamp (value : String) : Except ValidationError Int :=
  match ExternalParsers.parseTimestamp value with
  | none => .error ⟨"timestamp must be RFC 3339"⟩
  | some instant => .ok instant

/-- The instant of an optional timestamp. -/
def validateOptTimestamp : Option String → Except ValidationError (Option Int)
  | none => .ok none
  | some value => (validateTimestamp value).map some

/-! ## Records -/

/-- A record that a source returned. -/
structure Record where
  id : RecordId
  source : SourceId
  kind : String
  url : String
  title : Option String
  text : Option String
  author : Option String
  createdAt : Option String
  updatedAt : Option String
  metadata : Json

namespace Record

/-- The identity of a record: its source and its identifier. -/
def identity (record : Record) : SourceId × RecordId := (record.source, record.id)

/-- The checks every accepted record passes. -/
def validate (record : Record) : Except ValidationError Unit := do
  if isBlank record.kind ∨ 128 < record.kind.utf8ByteSize then
    throw ⟨"record kind must contain 1 to 128 bytes"⟩
  validateUrl record.url
  let _ ← validateOptTimestamp record.createdAt
  let _ ← validateOptTimestamp record.updatedAt
  if record.metadata.isObject then pure () else throw ⟨"metadata must be a JSON object"⟩

/-- The record as the serializer writes it. -/
def toJson (record : Record) : Json :=
  .obj [("id", .str record.id.value), ("source", .str record.source.value),
    ("kind", .str record.kind), ("url", .str record.url), ("title", .optStr record.title),
    ("text", .optStr record.text), ("author", .optStr record.author),
    ("created_at", .optStr record.createdAt), ("updated_at", .optStr record.updatedAt),
    ("metadata", record.metadata)]

end Record

/-! ## Queries -/

/-- A search query. -/
structure Query where
  text : String
  limit : Option Nat
  since : Option String
  «until» : Option String
deriving DecidableEq

namespace Query

/-- The checks every accepted query passes. -/
def validate (query : Query) : Except ValidationError Unit := do
  if isBlank query.text ∨ 8192 < query.text.utf8ByteSize then
    throw ⟨"query text must contain 1 to 8192 bytes"⟩
  if query.limit.any fun n => n = 0 ∨ 1000 < n then
    throw ⟨"query limit must be between 1 and 1000"⟩
  let since ← validateOptTimestamp query.since
  let «until» ← validateOptTimestamp query.until
  match since, «until» with
  | some start, some stop =>
    if start > stop then throw ⟨"since must not be later than until"⟩ else pure ()
  | _, _ => pure ()

end Query

/-! ## Targets -/

/-- What a fetch asks for. -/
inductive Target where
  | record (record : Record)
  | url (source : SourceId) (address : String)
  | native (source : SourceId) (id : String)

namespace Target

/-- The source that answers. -/
def source : Target → SourceId
  | record r => r.source
  | url source _ => source
  | native source _ => source

/-- The checks every accepted target passes. -/
def validate : Target → Except ValidationError Unit
  | record r => r.validate
  | url _ address => validateUrl address
  | native _ id => (RecordId.new id).map fun _ => ()

end Target

end Comsat
