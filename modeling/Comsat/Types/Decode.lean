import Comsat.Lib.Text
import Comsat.Types.Error
import Comsat.Types.Record

set_option relaxedAutoImplicit false
set_option autoImplicit false

/-!
# Reading JSON values

How the values that the tools of sources exchange are read back: records, and the codes that name
the classes of errors.

## Main definitions

* `Record.fromValue` — the record a JSON value stands for.
* `ErrorClass.code`, `errorClass` — the code that names a class, and the class of a code.
* `Query.toJson`, `Target.toJson` — queries and targets as the serializer writes them.
* `Query.fromValue`, `Target.fromValue` — the query and the target a JSON value stands for.

## Main results

* `Record.fromValue_toJson` — a written record is read back.
* `errorClass_code` — a written class is read back.
* `Query.fromValue_arguments`, `Target.fromValue_toJson` — written queries and targets are read
  back, a query also when its `null` fields are left out.

## Design

* The deserializer also reads a record or a query from the array of its fields, and a target from
  the array of its type and its fields.
-/

namespace Comsat

/-! ## Records -/

namespace Json

/-- The text of a string field. -/
def decodeString (field : Option Json) : Option String := field.bind asStr?

/-- The text of an optional string field: a missing field and `null` both stand for none. -/
def decodeOptString : Option Json → Option (Option String)
  | none => some none
  | some null => some none
  | some (str value) => some (some value)
  | some _ => none

/-- A written optional text is read back. -/
@[simp] lemma decodeOptString_optStr (value : Option String) :
    decodeOptString (some (optStr value)) = some value := by
  cases value <;> rfl

end Json

/-- Reads the identifier of a source. -/
def SourceId.fromField (field : Option Json) : Option SourceId :=
  (Json.decodeString field).bind fun value => (SourceId.new value).toOption

/-- Reads the identifier of a record. -/
def RecordId.fromField (field : Option Json) : Option RecordId :=
  (Json.decodeString field).bind fun value => (RecordId.new value).toOption

/-- A written source identifier is read back. -/
@[simp] lemma SourceId.fromField_value (source : SourceId) :
    SourceId.fromField (some (.str source.value)) = some source := by
  simp [fromField, Json.decodeString, Json.asStr?, SourceId.new, source.valid, Except.toOption]

/-- A written record identifier is read back. -/
@[simp] lemma RecordId.fromField_value (id : RecordId) :
    RecordId.fromField (some (.str id.value)) = some id := by
  simp [fromField, Json.decodeString, Json.asStr?, RecordId.new, id.valid, Except.toOption]

namespace Record

/-- Reads a record from its fields. -/
def fromFields (id source kind url title text author createdAt updatedAt metadata : Option Json) :
    Option Record := do
  return { id := ← RecordId.fromField id
           source := ← SourceId.fromField source
           kind := ← Json.decodeString kind
           url := ← Json.decodeString url
           title := ← Json.decodeOptString title
           text := ← Json.decodeOptString text
           author := ← Json.decodeOptString author
           createdAt := ← Json.decodeOptString createdAt
           updatedAt := ← Json.decodeOptString updatedAt
           metadata := ← metadata }

/-- Reads a record from a JSON value. -/
def fromValue (value : Json) : Option Record :=
  match value with
  | .obj _ =>
    fromFields (value.get? "id") (value.get? "source") (value.get? "kind") (value.get? "url")
      (value.get? "title") (value.get? "text") (value.get? "author") (value.get? "created_at")
      (value.get? "updated_at") (value.get? "metadata")
  | .arr [id, source, kind, url, title, text, author, createdAt, updatedAt, metadata] =>
    fromFields id source kind url title text author createdAt updatedAt metadata
  | _ => none

/-- **Records are read back.** Reading a written record gives the record. -/
theorem fromValue_toJson (record : Record) : fromValue record.toJson = some record := by
  simp [fromValue, toJson, Json.get?, fromFields, Json.decodeString, Json.asStr?]

end Record

/-! ## Classes of errors -/

namespace ErrorClass

/-- The code that names a class. -/
def code : ErrorClass → String
  | authentication => "authentication"
  | authorization => "authorization"
  | rateLimit => "rate_limit"
  | invalidQuery => "invalid_query"
  | notFound => "not_found"
  | unsupported => "unsupported"
  | upstream => "upstream"
  | timeout => "timeout"
  | cancelled => "cancelled"
  | protocol => "protocol"
  | internal => "internal"

/-- All classes. -/
def all : List ErrorClass :=
  [authentication, authorization, rateLimit, invalidQuery, notFound, unsupported, upstream,
    timeout, cancelled, protocol, internal]

end ErrorClass

/-- The class a code names: upper case counts as lower case, and unknown codes are upstream
errors. -/
def errorClass (code : String) : ErrorClass :=
  let normalized := String.ofList (code.toList.map Char.toLower)
  if normalized = "validation_error" then .invalidQuery
  else (ErrorClass.all.find? fun c => c.code = normalized).getD .upstream

/-- **Classes are read back.** The class of the code of a class is the class. -/
theorem errorClass_code (c : ErrorClass) : errorClass c.code = c := by
  cases c <;> decide

/-! ## Queries and targets -/

/-- An optional number, or `null` when there is none. -/
def Json.optNat : Option ℕ → Json
  | some n => .int n
  | none => .null

/-- The query as the serializer writes it. -/
def Query.toJson (query : Query) : Json :=
  .obj [("text", .str query.text), ("limit", .optNat query.limit), ("since", .optStr query.since),
    ("until", .optStr query.until)]

/-- The target as the serializer writes it. -/
def Target.toJson : Target → Json
  | record r => .obj [("type", .str "record"), ("record", r.toJson)]
  | url source address =>
    .obj [("type", .str "url"), ("source", .str source.value), ("url", .str address)]
  | native source id =>
    .obj [("type", .str "native"), ("source", .str source.value), ("id", .str id)]

/-- Reads an unsigned number of 32 bits from its literal. -/
def Json.decodeU32 (literal : String) : Option ℕ :=
  if literal ≠ "" ∧ literal.toList.all Char.isDigit then
    let n := Nat.ofDigitChars 10 literal.toList 0
    if n < 2 ^ 32 then some n else none
  else none

/-- An optional number: a missing field and `null` both stand for none. -/
def Json.decodeOptU32 : Option Json → Option (Option ℕ)
  | none => some none
  | some null => some none
  | some (num literal) => (decodeU32 literal).map some
  | some _ => none

/-- A written number of 32 bits is read back. -/
lemma Json.decodeU32_repr {n : ℕ} (h : n < 2 ^ 32) : decodeU32 (n : ℤ).repr = some n := by
  have hliteral : (n : ℤ).repr = n.repr := by
    rw [Int.repr_eq_if, if_pos (by omega), Int.toNat_natCast]
  have hdigits : n.repr.toList.all Char.isDigit = true := by
    rw [List.all_eq_true]
    intro c hc
    rw [← Nat.toString_eq_repr] at hc
    exact Text.isDigit_of_mem_nat_toString hc
  rw [hliteral, decodeU32, if_pos ⟨Nat.repr_ne_empty, hdigits⟩, Nat.toList_repr,
    Nat.ofDigitChars_toDigits (by decide) (by decide), if_pos h]

/-- Reads a query from its fields. -/
def Query.fromFields (text limit since «until» : Option Json) : Option Query := do
  return { text := ← Json.decodeString text
           limit := ← Json.decodeOptU32 limit
           since := ← Json.decodeOptString since
           «until» := ← Json.decodeOptString «until» }

/-- Reads a query from a JSON value. -/
def Query.fromValue (value : Json) : Option Query :=
  match value with
  | .obj _ =>
    fromFields (value.get? "text") (value.get? "limit") (value.get? "since") (value.get? "until")
  | .arr [text, limit, since, «until»] => fromFields text limit since «until»
  | _ => none

/-- The fields of an object that are not `null`. -/
def objectArguments : Json → List (String × Json)
  | .obj fields => fields.filter fun field =>
      match field.2 with
      | .null => false
      | _ => true
  | _ => []

/-- **Queries are read back.** Reading the fields of a written query that are not `null` gives the
query. -/
theorem Query.fromValue_arguments {query : Query} (h : ∀ n ∈ query.limit, n < 2 ^ 32) :
    fromValue (.obj (objectArguments query.toJson)) = some query := by
  obtain ⟨text, limit, since, «until»⟩ := query
  cases limit with
  | none =>
    cases since <;> cases «until» <;>
      simp [fromValue, objectArguments, toJson, fromFields, Json.get?, Json.optNat, Json.optStr,
        Json.decodeString, Json.asStr?, Json.decodeOptU32, Json.decodeOptString]
  | some n =>
    have hn := Json.decodeU32_repr (h n rfl)
    cases since <;> cases «until» <;>
      simp [fromValue, objectArguments, toJson, fromFields, Json.get?, Json.optNat, Json.optStr,
        Json.decodeString, Json.asStr?, Json.decodeOptU32, Json.decodeOptString, Json.int, hn]

/-- Reads a target of a type from its fields. -/
def Target.fromFields (type : String) (record source address id : Option Json) : Option Target :=
  if type = "record" then do return .record (← Record.fromValue (← record))
  else if type = "url" then do
    return .url (← SourceId.fromField source) (← Json.decodeString address)
  else if type = "native" then do
    return .native (← SourceId.fromField source) (← Json.decodeString id)
  else none

/-- Reads a target from a JSON value. -/
def Target.fromValue (value : Json) : Option Target :=
  match value with
  | .obj _ => do
    fromFields (← Json.decodeString (value.get? "type")) (value.get? "record")
      (value.get? "source") (value.get? "url") (value.get? "id")
  | .arr [.str type, value] =>
    if type = "record" then fromFields type value none none none else none
  | .arr [.str type, source, text] =>
    if type = "record" then none else fromFields type none source text text
  | _ => none

/-- **Targets are read back.** Reading a written target gives the target; none of its fields is
`null`. -/
theorem Target.fromValue_toJson (target : Target) :
    fromValue (.obj (objectArguments target.toJson)) = some target := by
  cases target with
  | record r =>
    have hfields : objectArguments (toJson (.record r)) =
        [("type", .str "record"), ("record", r.toJson)] := by
      simp [objectArguments, toJson, Record.toJson]
    simp [hfields, fromValue, fromFields, Json.get?, Json.decodeString, Json.asStr?,
      Record.fromValue_toJson]
  | url source address =>
    simp [fromValue, objectArguments, toJson, fromFields, Json.get?, Json.decodeString, Json.asStr?]
  | native source id =>
    simp [fromValue, objectArguments, toJson, fromFields, Json.get?, Json.decodeString, Json.asStr?]

end Comsat
