import Comsat.Source.Http

set_option relaxedAutoImplicit false
set_option autoImplicit false

/-!
# Fetching records of the program's own sources

The sources put their records together from what services answer. Fetching such a record should ask
for the object that it describes, and return a record with the same identity.

## Main definitions

* `UpstreamSource` — the calls of a source.
* `UpstreamSource.Emits` — a record that a source returns when a service answers it.
* `UpstreamSource.KeepsIdentity` — fetching a record keeps its identity.
* `UpstreamSource.KeepsIdentityWhen` — fetching the records that a source returns keeps their
  identity exactly under a condition.
* `Replies` — a service answers a request with a value.

## Main results

* `Record.fromValue_fields` — a record that is put together has the fields that were put in.
-/

namespace Comsat

/-- The calls of a source. -/
structure UpstreamSource where
  search : Query → Program (List (Except SourceError Record))
  fetch : Target → Program (Except SourceError Record)
  follow : Target → Program (List (Except SourceError Record))

/-- Records that are returned together, or none of them. -/
def Program.together (call : Program (Except SourceError (List Record))) :
    Program (List (Except SourceError Record)) :=
  call.bind fun
    | .ok records => .done (records.map Except.ok)
    | .error error => .done [.error error]

namespace UpstreamSource

variable (source : UpstreamSource) (service : HttpRequest → Except SourceError HttpResponse)

/-- A source returns a record when a service answers it. -/
def Emits (record : Record) : Prop :=
  ∃ cooling, (∃ query, .ok record ∈ ((source.search query).run service cooling).2) ∨
    (∃ target, ((source.fetch target).run service cooling).2 = .ok record) ∨
    ∃ target, .ok record ∈ ((source.follow target).run service cooling).2

/-- Fetching a record fails, or it sends one request, which asks for the object that the record
describes, and returns a record with the same source and the same identifier. -/
def KeepsIdentity (asks : HttpRequest → Prop) (record : Record) : Prop :=
  ∀ cooling requests fetched,
    (source.fetch (.record record)).run service cooling = (requests, .ok fetched) →
      (∃ request, requests = [request] ∧ asks request) ∧ fetched.source = record.source ∧
        fetched.id = record.id

/-- The records that a source returns describe objects. When services answer with the objects that
they are asked for, fetching a record keeps its identity exactly under a condition on the object. -/
def KeepsIdentityWhen {Object : Type}
    (answers : (HttpRequest → Except SourceError HttpResponse) → Prop)
    (describes : Record → Object → Prop) (asks : HttpRequest → Object → Prop)
    (condition : (HttpRequest → Except SourceError HttpResponse) → Object → Prop) : Prop :=
  ∀ before after record, answers before → answers after → source.Emits before record →
    ∃ object, describes record object ∧
      (source.KeepsIdentity after (asks · object) record ↔ condition after object)

end UpstreamSource

/-- A service answers a request with a value. -/
def Replies {α : Type} (service : HttpRequest → Except SourceError HttpResponse)
    (request : HttpRequest) (read : HttpResponse → Except SourceError α) (value : α) : Prop :=
  ∃ response, service request = .ok response ∧ read response = .ok value

/-! ## Calls that succeed -/

section

variable {α β : Type} {service : HttpRequest → Except SourceError HttpResponse}
  {cooling : OperationKind → Option ℕ}

/-- An answer that is read in two steps. -/
lemma Replies.bind {request : HttpRequest} {read : HttpResponse → Except SourceError α}
    {f : α → Except SourceError β} {b : β} :
    Replies service request (fun response => (read response).bind f) b ↔
      ∃ a, Replies service request read a ∧ f a = .ok b := by
  constructor
  · rintro ⟨response, hservice, hread⟩
    change (read response).bind f = .ok b at hread
    cases ha : read response with
    | error e =>
      rw [ha] at hread
      cases hread
    | ok a =>
      rw [ha] at hread
      exact ⟨a, ⟨response, hservice, ha⟩, hread⟩
  · rintro ⟨a, ⟨response, hservice, ha⟩, hf⟩
    refine ⟨response, hservice, ?_⟩
    change (read response).bind f = .ok b
    rw [ha]
    exact hf

/-- What a call comes to when it goes on after another one. -/
lemma Program.run_andThen_ok {call : Program (Except SourceError α)}
    {f : α → Program (Except SourceError β)} {requests : List HttpRequest} {b : β}
    (h : (call.andThen f).run service cooling = (requests, .ok b)) :
    ∃ first a rest, call.run service cooling = (first, .ok a) ∧
      (f a).run service cooling = (rest, .ok b) ∧ requests = first ++ rest := by
  rw [andThen, run_bind] at h
  rcases hcall : call.run service cooling with ⟨first, e | a⟩
  · rw [hcall] at h
    cases h
  · rw [hcall] at h
    obtain ⟨hrequests, hresult⟩ := Prod.mk.inj h
    exact ⟨first, a, _, rfl, Prod.ext rfl hresult, hrequests.symm⟩

/-- One call after another depends on what the second comes to. -/
lemma Program.run_andThen_congr {call : Program (Except SourceError α)}
    {f g : α → Program (Except SourceError β)}
    (h : ∀ a, (f a).run service cooling = (g a).run service cooling) :
    (call.andThen f).run service cooling = (call.andThen g).run service cooling := by
  rw [andThen, andThen, run_bind, run_bind]
  cases (call.run service cooling).2 with
  | error e => rfl
  | ok a => simp only [h]

/-- What a call comes to when its result is read after it. -/
lemma Program.run_andThen_done_ok {call : Program (Except SourceError α)}
    {f : α → Except SourceError β} {requests : List HttpRequest} {b : β} :
    (call.andThen fun a => done (f a)).run service cooling = (requests, .ok b) ↔
      ∃ a, call.run service cooling = (requests, .ok a) ∧ f a = .ok b := by
  constructor
  · intro h
    obtain ⟨first, a, rest, hcall, hrest, rfl⟩ := run_andThen_ok h
    obtain ⟨hrequests, hresult⟩ := Prod.mk.inj hrest
    exact ⟨a, by rw [hcall, ← hrequests, List.append_nil], hresult⟩
  · rintro ⟨a, hcall, hf⟩
    rw [andThen, run_bind, hcall]
    exact Prod.ext (List.append_nil _) hf

/-- The records that are returned together. -/
lemma Program.mem_run_together {call : Program (Except SourceError (List Record))} {record : Record}
    (h : .ok record ∈ (call.together.run service cooling).2) :
    ∃ records, (call.run service cooling).2 = .ok records ∧ record ∈ records := by
  rw [together, run_bind] at h
  cases hcall : (call.run service cooling).2 with
  | error e =>
    rw [hcall] at h
    simp [run] at h
  | ok records =>
    rw [hcall] at h
    exact ⟨records, rfl, by simpa [run] using h⟩

/-- What is made of the items of a list is made of one of them. -/
lemma exists_mem_of_mapM {f : α → Except SourceError β} {items : List α} {results : List β} {b : β}
    (h : items.mapM f = .ok results) (hmem : b ∈ results) : ∃ a ∈ items, f a = .ok b := by
  induction items generalizing results with
  | nil =>
    obtain rfl : [] = results := by simpa [pure, Except.pure] using h
    cases hmem
  | cons a items ih =>
    rw [List.mapM_cons] at h
    cases hfirst : f a with
    | error e => simp [hfirst, bind, Except.bind] at h
    | ok first =>
      cases hrest : items.mapM f with
      | error e => simp [hfirst, hrest, bind, Except.bind] at h
      | ok rest =>
        obtain rfl : first :: rest = results := by
          simpa [hfirst, hrest, bind, Except.bind, pure, Except.pure] using h
        rcases List.mem_cons.mp hmem with rfl | hmem
        · exact ⟨a, List.mem_cons_self .., hfirst⟩
        · obtain ⟨found, hfound, hf⟩ := ih hrest hmem
          exact ⟨found, List.mem_cons_of_mem _ hfound, hf⟩

end

/-- The identifier that a text stands for. -/
lemma RecordId.value_of_fromField {value : String} {id : RecordId}
    (h : RecordId.fromField (some (.str value)) = some id) : id.value = value := by
  simp only [fromField, Json.decodeString, Json.asStr?, Option.bind_some, RecordId.new] at h
  split at h
  · obtain rfl := Option.some.inj h
    rfl
  · cases h

/-- The source that a text stands for. -/
lemma SourceId.value_of_fromField {value : String} {source : SourceId}
    (h : SourceId.fromField (some (.str value)) = some source) : source.value = value := by
  simp only [fromField, Json.decodeString, Json.asStr?, Option.bind_some, SourceId.new] at h
  split at h
  · obtain rfl := Option.some.inj h
    rfl
  · cases h

/-- **Records put together.** A record that is read from fields has the identifier, the source, the
URL and the metadata among them. -/
theorem Record.fromValue_fields {id source url : String}
    {kind title text author createdAt updatedAt metadata : Json} {record : Record}
    (h : Record.fromValue (.obj [("id", .str id), ("source", .str source), ("kind", kind),
      ("url", .str url), ("title", title), ("text", text), ("author", author),
      ("created_at", createdAt), ("updated_at", updatedAt), ("metadata", metadata)]) =
        some record) :
    record.id.value = id ∧ record.source.value = source ∧ record.url = url ∧
      record.metadata = metadata := by
  simp only [fromValue, Json.get?, List.find?, String.reduceEq, decide_false, decide_true,
    Option.map_some, fromFields, bind, Option.bind_eq_some_iff, pure, Option.some.injEq] at h
  obtain ⟨rid, hid, sid, hsource, _, -, address, hurl, _, -, _, -, _, -, _, -, _, -, _, rfl, rfl⟩ := h
  exact ⟨RecordId.value_of_fromField hid, SourceId.value_of_fromField hsource,
    (Option.some.inj hurl).symm, rfl⟩

end Comsat
