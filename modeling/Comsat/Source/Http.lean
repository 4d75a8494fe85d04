import Comsat.Engine.Plan
import Comsat.Types.Decode

set_option relaxedAutoImplicit false
set_option autoImplicit false

/-!
# Calls of upstream services

The sources of the program ask upstream services over HTTP, one request after another, and watch
the rate limits that the services announce.

## Main definitions

* `HttpRequest`, `HttpResponse` — what is sent and received.
* `UpstreamLibrary` — texts and decisions of the libraries that send requests and read answers.
* `Program` — a call: it looks at its rate limit, sends requests and notes announced waits.
* `Program.run` — a call against a service that gives every request one answer.
* `Json.fields` — the fields of a structure in a JSON value.

## Main results

* `parseU64_toString` — a written number is read back.

## Design

* A response carries the JSON value that the parser reads in its body, so a JSON text and its
  value are not told apart.
-/

namespace Comsat

/-! ## Requests and responses -/

/-- A request to an upstream service. -/
structure HttpRequest where
  method : String
  uri : String
  headers : List (String × String)
  /-- The JSON value that is posted. -/
  body : Option Json

/-- A response of an upstream service. -/
structure HttpResponse where
  status : ℕ
  /-- The text of the header `retry-after`. -/
  retryAfter : Option String
  body : List UInt8
  /-- What the JSON parser reads in the body. -/
  json : Option Json

/-- Whether the status is one of success. -/
def HttpResponse.isSuccess (response : HttpResponse) : Bool :=
  200 ≤ response.status && response.status < 300

/-- Texts and decisions of the libraries that send requests and read answers. -/
class UpstreamLibrary where
  /-- What the HTTP library objects to in a request. -/
  requestError : HttpRequest → Option String
  /-- A status as it is printed. -/
  statusText : ℕ → String
  /-- Why the deserializer refuses a body. -/
  decodeError : Option Json → String
  /-- The seconds of an RFC 3339 timestamp. -/
  toUnix : String → Except String ℤ
  /-- The RFC 3339 timestamp of some seconds. -/
  ofUnix : ℕ → Option String

/-- Libraries that accept every request and know no timestamp, to evaluate definitions on concrete
inputs. -/
@[reducible] def UpstreamLibrary.plain : UpstreamLibrary where
  requestError _ := none
  statusText status := toString status
  decodeError _ := "invalid"
  toUnix _ := .error "invalid"
  ofUnix _ := none

/-! ## Numbers -/

/-- Reads an unsigned number of 64 bits from digits. -/
def digitsU64 (digits : List Char) : Option ℕ :=
  if digits ≠ [] ∧ digits.all Char.isDigit then
    let n := Nat.ofDigitChars 10 digits 0
    if n < 2 ^ 64 then some n else none
  else none

/-- Reads an unsigned number of 64 bits from a text, which may begin with a plus sign. -/
def parseU64 (value : String) : Option ℕ :=
  match value.toList with
  | '+' :: digits => digitsU64 digits
  | digits => digitsU64 digits

/-- The digits of a number are read back. -/
lemma digitsU64_repr {n : ℕ} (h : n < 2 ^ 64) : digitsU64 n.repr.toList = some n := by
  have hdigits : n.repr.toList.all Char.isDigit = true := by
    rw [List.all_eq_true]
    intro c hc
    rw [← Nat.toString_eq_repr] at hc
    exact Text.isDigit_of_mem_nat_toString hc
  have hne : n.repr.toList ≠ [] := by
    rw [Ne, String.toList_eq_nil_iff]
    exact Nat.repr_ne_empty
  rw [digitsU64, if_pos ⟨hne, hdigits⟩, Nat.toList_repr,
    Nat.ofDigitChars_toDigits (by decide) (by decide), if_pos h]

/-- **Numbers are read back.** Reading a written number gives the number. -/
theorem parseU64_toString {n : ℕ} (h : n < 2 ^ 64) : parseU64 (toString n) = some n := by
  have hread := digitsU64_repr h
  rw [parseU64, Nat.toString_eq_repr]
  split
  · rename_i digits hplus
    have hmem : '+' ∈ (toString n).toList := by
      rw [Nat.toString_eq_repr, hplus]
      exact List.mem_cons_self ..
    exact absurd (Text.isDigit_of_mem_nat_toString hmem) (by decide)
  · exact hread

namespace Json

/-- An unsigned number of 64 bits. -/
def asU64? : Json → Option ℕ
  | num literal => digitsU64 literal.toList
  | _ => none

/-- A signed number of 64 bits. -/
def asI64? : Json → Option ℤ
  | num literal =>
    match literal.toList with
    | '-' :: digits => do
      let n ← digitsU64 digits
      if n ≠ 0 ∧ n ≤ 2 ^ 63 then some (-(n : ℤ)) else none
    | digits => do
      let n ← digitsU64 digits
      if n < 2 ^ 63 then some (n : ℤ) else none
  | _ => none

/-- A Boolean value. -/
def asBool? : Json → Option Bool
  | bool value => some value
  | _ => none

/-- The items of an array. -/
def asArray? : Json → Option (List Json)
  | arr items => some items
  | _ => none

/-- A written number is read back. -/
@[simp] lemma asU64?_int {n : ℕ} (h : n < 2 ^ 64) : asU64? (int n) = some n := by
  have hliteral : toString (n : ℤ) = n.repr := by
    rw [Int.toString_eq_repr, Int.repr_eq_if, if_pos (by omega), Int.toNat_natCast]
  rw [int, asU64?, hliteral, digitsU64_repr h]

/-! ## Structures -/

/-- The fields of a structure in a JSON value: an object names them, an array lists all of them. -/
def fields (names : List String) : Json → Option (List (Option Json))
  | obj pairs => some (names.map fun name => (obj pairs).get? name)
  | arr items => if items.length = names.length then some (items.map some) else none
  | _ => none

/-- A field that must be there. -/
def required {α : Type} (read : Json → Option α) (field : Option Json) : Option α := field.bind read

/-- A field that may be missing or `null`. -/
def optional {α : Type} (read : Json → Option α) : Option Json → Option (Option α)
  | none => some none
  | some null => some none
  | some value => (read value).map some

/-- The items of an array, each read alike. -/
def items {α : Type} (read : Json → Option α) : Json → Option (List α)
  | arr values => values.mapM read
  | _ => none

/-- The value at a path of field names. -/
def pointer (path : List String) (value : Json) : Option Json :=
  path.foldlM get? value

/-- An optional value as it is written, `null` when there is none. -/
def ofOption {α : Type} (write : α → Json) (value : Option α) : Json :=
  (value.map write).getD .null

end Json

/-- The characters that stand for a byte in a percent-encoded text. -/
def percentByte (byte : UInt8) : List Char :=
  let c := Char.ofNat byte.toNat
  if c.isAlphanum then [c]
  else ['%', (Nat.digitChar (byte.toNat / 16)).toUpper, (Nat.digitChar (byte.toNat % 16)).toUpper]

/-- The text with every byte that is not an ASCII letter or digit percent-encoded. -/
def percentEncode (value : String) : String :=
  String.ofList (value.toUTF8.data.toList.flatMap percentByte)

/-! ## Calls -/

/-- A call of a source, step by step. -/
inductive Program (α : Type) where
  /-- It ends. -/
  | done (result : α)
  /-- It asks for how many more seconds the operation has to wait. -/
  | check (operation : OperationKind) (next : Option ℕ → Program α)
  /-- It notes that the operation has to wait for some seconds. -/
  | note (operation : OperationKind) (seconds : ℕ) (next : Program α)
  /-- It sends a request and goes on with the answer. -/
  | send (request : HttpRequest) (next : Except SourceError HttpResponse → Program α)

namespace Program

variable {α β : Type}

/-- One call after another. -/
def bind (f : α → Program β) : Program α → Program β
  | done result => f result
  | check operation next => check operation fun wait => bind f (next wait)
  | note operation seconds next => note operation seconds (bind f next)
  | send request next => send request fun answer => bind f (next answer)

/-- One call after another that has not failed. -/
def andThen (call : Program (Except SourceError α)) (f : α → Program (Except SourceError β)) :
    Program (Except SourceError β) :=
  call.bind fun
    | .ok a => f a
    | .error error => done (.error error)

/-- A call against a service that gives every request one answer: the requests, and the result. -/
def run (service : HttpRequest → Except SourceError HttpResponse)
    (cooling : OperationKind → Option ℕ) : Program α → List HttpRequest × α
  | done result => ([], result)
  | check operation next => run service cooling (next (cooling operation))
  | note _ _ next => run service cooling next
  | send request next =>
    let (requests, result) := run service cooling (next (service request))
    (request :: requests, result)

variable {service : HttpRequest → Except SourceError HttpResponse}
  {cooling : OperationKind → Option ℕ}

/-- One call after another sends the requests of both. -/
lemma run_bind (call : Program α) (f : α → Program β) :
    (call.bind f).run service cooling =
      ((call.run service cooling).1 ++ ((f (call.run service cooling).2).run service cooling).1,
        ((f (call.run service cooling).2).run service cooling).2) := by
  induction call with
  | done result => rfl
  | check operation next ih => exact ih _
  | note operation seconds next ih => exact ih
  | send request next ih =>
    simp only [bind, run, ih, List.cons_append]

end Program

end Comsat
