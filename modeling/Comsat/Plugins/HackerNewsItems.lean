import Comsat.Plugins.HackerNews
import Comsat.Plugins.Identity

set_option relaxedAutoImplicit false
set_option autoImplicit false

/-!
# Fetching records of the Hacker News source

Which items the records of the source describe. Fetching a record returns the same item again.

## Main definitions

* `HackerNews.Items.Answers` — the services answer requests with the items that they ask for.
* `HackerNews.Items.Describes` — a record describes an item.

## Main results

* `HackerNews.Items.describes_of_emits` — every record that the source returns describes an item.
* `HackerNews.Items.keepsIdentity` — fetching a record keeps its identity.
-/

namespace Comsat.HackerNews

variable [UpstreamLibrary]

/-! ## Items -/

/-- The items of the service. -/
structure Items where
  Present : ℕ → Prop
  /-- Numbers have at most 64 bits. -/
  numbered : ∀ id, Present id → id < 2 ^ 64

/-- A request to the services. -/
def getRequest (url : String) : HttpRequest := ⟨"GET", url, [("user-agent", "comsat")], none⟩

/-- The request of a search within bounds. -/
def searchRequest (query : Query) (filters : String) : HttpRequest :=
  getRequest ("https://hn.algolia.com/api/v1/search?query=" ++ percentEncode query.text ++
    "&tags=" ++ percentEncode "(story,comment)" ++ "&hitsPerPage=" ++
    toString (query.limit.getD 10) ++ "&advancedSyntax=true" ++ filters)

/-- Reads the item of an answer. -/
def readItem (response : HttpResponse) : Except SourceError Item :=
  (checkedBody response).bind parseItem

namespace Items

variable (items : Items)

omit [UpstreamLibrary] in
/-- A record describes an item. -/
def Describes (record : Record) (id : ℕ) : Prop :=
  items.Present id ∧ record.source = sourceId ∧ record.id.value = "hacker-news:" ++ toString id

/-- The services answer requests with the items that they ask for: what they return is present, and
a request for an item that is present returns this item. -/
structure Answers (service : HttpRequest → Except SourceError HttpResponse) : Prop where
  searched : ∀ query filters found,
    Replies service (searchRequest query filters)
      (fun response => (checkedBody response).bind (parseJson hitsFromValue)) found →
    ∀ hit ∈ found, ∃ id, items.Present id ∧ hit.objectId = toString id
  item : ∀ asked found, Replies service (getRequest (itemUrl asked)) readItem found →
    items.Present found.id ∧ (items.Present asked → found.id = asked)

end Items

/-! ## Calls that succeed -/

variable {service : HttpRequest → Except SourceError HttpResponse}
  {cooling : OperationKind → Option ℕ} {requests : List HttpRequest} {records : List Record}
  {r : Record}

/-- A request succeeds when the library accepts it and the body of the answer can be read. -/
lemma run_exchange_ok {url : String} {body : Option Json} :
    (exchange url).run service cooling = (requests, .ok body) ↔
      UpstreamLibrary.requestError (getRequest url) = none ∧ requests = [getRequest url] ∧
        Replies service (getRequest url) checkedBody body := by
  rw [exchange, ← getRequest]
  cases hrequest : UpstreamLibrary.requestError (getRequest url) with
  | some message => simp [Program.run]
  | none =>
    simp only [Program.run, Replies, true_and]
    cases service (getRequest url) <;> simp [Program.run, eq_comm]

/-- A request for an item that succeeds. -/
lemma run_fetchItem_ok {id : ℕ} {item : Item} :
    (fetchItem id).run service cooling = (requests, .ok item) ↔
      UpstreamLibrary.requestError (getRequest (itemUrl id)) = none ∧
        requests = [getRequest (itemUrl id)] ∧
        Replies service (getRequest (itemUrl id)) readItem item := by
  rw [fetchItem, Program.run_andThen_done_ok]
  simp only [run_exchange_ok]
  constructor
  · rintro ⟨body, ⟨hrequest, rfl, hbody⟩, hread⟩
    exact ⟨hrequest, rfl, Replies.bind.mpr ⟨body, hbody, hread⟩⟩
  · rintro ⟨hrequest, rfl, hreplies⟩
    obtain ⟨body, hbody, hread⟩ := Replies.bind.mp hreplies
    exact ⟨body, ⟨hrequest, rfl, hbody⟩, hread⟩

/-! ## Records and their items -/

/-- A record that the source has put together. -/
lemma record_ok {id url : String} {kind title text author createdAt updatedAt metadata : Json}
    (h : record (.obj [("id", .str id), ("source", .str "hacker-news"), ("kind", kind),
      ("url", .str url), ("title", title), ("text", text), ("author", author),
      ("created_at", createdAt), ("updated_at", updatedAt), ("metadata", metadata)]) = .ok r) :
    r.source = sourceId ∧ r.id.value = id := by
  rw [record] at h
  split at h
  · rename_i found hfound
    obtain rfl := Except.ok.inj h
    obtain ⟨hid, hsource, -, -⟩ := Record.fromValue_fields hfound
    exact ⟨SourceId.ext_value hsource, hid⟩
  · cases h

namespace Items

variable {items : Items}

/-- The record of an item that the service returns describes the item. -/
lemma describes_of_item (hservice : items.Answers service) {asked : ℕ} {item : Item}
    (hreplies : Replies service (getRequest (itemUrl asked)) readItem item)
    (h : normalizeItem item = .ok r) : items.Describes r item.id :=
  ⟨(hservice.item asked item hreplies).1, record_ok h⟩

/-- The records that a search returns describe items. -/
lemma describes_of_search (hservice : items.Answers service) {query : Query}
    (h : (searchRecords query).run service cooling = (requests, .ok records)) :
    ∀ r ∈ records, ∃ id, items.Describes r id := by
  intro r hr
  rw [searchRecords] at h
  split at h
  · cases h
  split at h
  · cases h
  · obtain ⟨body, hbody, hrecords⟩ := Program.run_andThen_done_ok.mp h
    obtain ⟨-, -, hreplies⟩ := run_exchange_ok.mp hbody
    cases hhits : parseJson hitsFromValue body with
    | error e =>
      rw [hhits] at hrecords
      cases hrecords
    | ok hits =>
      rw [hhits] at hrecords
      obtain ⟨hit, hhit, hnormalize⟩ := exists_mem_of_mapM hrecords hr
      obtain ⟨id, hpresent, hid⟩ := hservice.searched _ _ hits
        (Replies.bind.mpr ⟨body, hreplies, hhits⟩) hit hhit
      obtain ⟨hsource, hvalue⟩ := record_ok hnormalize
      exact ⟨id, hpresent, hsource, by rw [hvalue, hid]⟩

/-- The records of replies describe items. -/
lemma describes_of_followItems (hservice : items.Answers service) (ids : List ℕ)
    (h : .ok r ∈ ((followItems ids).run service cooling).2) : ∃ id, items.Describes r id := by
  induction ids with
  | nil => cases h
  | cons id ids ih =>
    rw [followItems, Program.run_bind, Program.run_bind] at h
    rcases List.mem_cons.mp h with hfirst | hrest
    · cases hitem : ((fetchItem id).run service cooling).2 with
      | error e =>
        rw [hitem] at hfirst
        cases hfirst
      | ok item =>
        rw [hitem] at hfirst
        obtain ⟨-, -, hreplies⟩ := run_fetchItem_ok.mp (Prod.ext rfl hitem)
        exact ⟨_, describes_of_item hservice hreplies hfirst.symm⟩
    · exact ih hrest

variable [UrlLibrary]

/-- A fetch that succeeds asks for an item and returns its record. -/
lemma run_fetchItemRecord_ok {target : Target} :
    (fetchItemRecord target).run service cooling = (requests, .ok r) ↔
      ∃ id, targetId target = .ok id ∧
        UpstreamLibrary.requestError (getRequest (itemUrl id)) = none ∧
        requests = [getRequest (itemUrl id)] ∧
        ∃ item, Replies service (getRequest (itemUrl id)) readItem item ∧
          normalizeItem item = .ok r := by
  rw [fetchItemRecord]
  cases htarget : targetId target with
  | error e => simp [Program.run]
  | ok id =>
    simp only [Program.run_andThen_done_ok, run_fetchItem_ok, Except.ok.injEq, exists_eq_left']
    constructor
    · rintro ⟨item, ⟨hrequest, rfl, hreplies⟩, hnormalize⟩
      exact ⟨hrequest, rfl, item, hreplies, hnormalize⟩
    · rintro ⟨hrequest, rfl, item, hreplies, hnormalize⟩
      exact ⟨item, ⟨hrequest, rfl, hreplies⟩, hnormalize⟩

omit [UpstreamLibrary] in
/-- A record that describes an item addresses the item. -/
lemma targetId_of_describes {id : ℕ} (h : items.Describes r id) :
    targetId (.record r) = .ok id := by
  obtain ⟨hpresent, hsource, hid⟩ := h
  have hparse : (Text.stripPrefix "hacker-news:" r.id.value).bind parseU64 = some id := by
    rw [hid, Text.stripPrefix_append]
    exact parseU64_toString (items.numbered id hpresent)
  simp [targetId, ensureSource, hsource, hparse, bind, Except.bind]

end Items

variable [UrlLibrary]

/-- The calls of the source. -/
def upstream : UpstreamSource where
  search query := (searchRecords query).together
  fetch := fetchItemRecord
  follow := followRecords

namespace Items

variable {items : Items} {id : ℕ}

/-- **Records describe items.** Every record that the source returns describes an item.

**Proof sketch.** Every record is made of a hit or of an item that the services return. -/
theorem describes_of_emits (hservice : items.Answers service) (h : upstream.Emits service r) :
    ∃ id, items.Describes r id := by
  obtain ⟨cooling, ⟨query, h⟩ | ⟨target, h⟩ | ⟨target, h⟩⟩ := h
  · obtain ⟨records, hrun, hmem⟩ := Program.mem_run_together h
    exact describes_of_search hservice (Prod.ext rfl hrun) r hmem
  · obtain ⟨id, -, -, -, item, hreplies, hnormalize⟩ :=
      run_fetchItemRecord_ok.mp (Prod.ext rfl h)
    exact ⟨_, describes_of_item hservice hreplies hnormalize⟩
  · change .ok r ∈ ((followRecords target).run service cooling).2 at h
    rw [followRecords] at h
    split at h
    · simp [Program.run] at h
    · rename_i asked _
      rw [Program.run_bind] at h
      cases hitem : ((fetchItem asked).run service cooling).2 with
      | error e => simp [hitem, Program.run] at h
      | ok item =>
        rw [hitem] at h
        exact describes_of_followItems hservice _ h

/-- **Fetches keep the identity of items.** Fetching the record of an item asks for the item and
returns a record with the same identity, or fails.

**Proof sketch.** The identifier of the record holds the number of the item. -/
theorem keepsIdentity (hservice : items.Answers service) {asks : HttpRequest → ℕ → Prop}
    (hasks : ∀ id, asks (getRequest (itemUrl id)) id) (h : items.Describes r id) :
    upstream.KeepsIdentity service (asks · id) r := by
  intro cooling requests fetched hrun
  obtain ⟨asked, htarget, -, rfl, item, hreplies, hnormalize⟩ := run_fetchItemRecord_ok.mp hrun
  rw [targetId_of_describes h] at htarget
  obtain rfl := Except.ok.inj htarget
  obtain ⟨-, hsource, hid⟩ := describes_of_item hservice hreplies hnormalize
  rw [(hservice.item _ item hreplies).2 h.1] at hid
  exact ⟨⟨_, rfl, hasks _⟩, hsource.trans h.2.1.symm, RecordId.ext_value (hid.trans h.2.2.symm)⟩

end Items

end Comsat.HackerNews
